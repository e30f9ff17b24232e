import BlockchainOps.Algo.Client
import BlockchainOps.Lib.Text

/-!
# What a client reads from algod

The single-call operations: reads of accounts, applications, assets, transactions and the node
itself, the broadcast of a signed transaction, and the compilation of a program. `blockSeed`
drives its request itself, past the limits, so it is a bare procedure and no `Client`.
-/

namespace BlockchainOps.Algo

open Effect

variable {α : Type}

/-- A call with an unreachable host reported as such, and other errors rewritten. -/
def orUnreachable (operation : String) (other : Error → Error) (x : Client α) : Client α :=
  Confined.mapErr
    (fun e => if e.isHostUnreachable then .typed (.unreachable operation e.display) else other e) x

/-- A call with an unreachable host reported as such, and every other error read as absence. -/
def orAbsent (operation : String) (x : Client α) : Client (Option α) := do
  match ← resultOf x with
  | .ok a => pure (some a)
  | .error e =>
    if (Error.text e.display).isHostUnreachable then
      Confined.raise (.typed (.unreachable operation e.display))
    else pure none

/-! ## Accounts -/

def accountBalance : Client (Option ℚ) := do
  let client ← algodClient
  let address ← requireAddress
  let info ← orUnreachable "account_information" id (algodCall (client.accountCall address))
  pure (some (info.amount / 1000000))

/-- The global state of a created application, if it is the one asked for. -/
def createdAppState (b64 : Base64) (maybeAppId : Option ℕ) (app : Json) :
    Option (ℕ × List (String × String)) := do
  let id ← app.get "id" >>= Json.asU64
  if maybeAppId.any (· ≠ id) then none
  let params ← app.get "params" >>= Json.asObject
  pure (id, decodeStateEntries b64 (arrayField (.obj params) "global_state" "global-state"))

def globalState (maybeAppId : Option ℕ) :
    Client (Option (List (ℕ × List (String × String)))) := do
  let client ← algodClient
  let address ← requireAddress
  match ← orAbsent "account_information" (algodCall (client.accountCall address)) with
  | none => pure none
  | some info =>
    let v ← orBail "failed to serialize account info" info.value
    let b64 := (← env).base64
    pure (some ((arrayField v "created_apps" "created-apps").filterMap
      (createdAppState b64 maybeAppId)))

/-- The value of a global state entry, if the entry has the key and a value. -/
def globalEntryBytes (b64 : Base64) (key : String) (entry : Json) : Option (Option Bytes) := do
  let keyB64 ← entry.get "key" >>= Json.asStr
  let bytes ← (b64.decode keyB64).toOption
  let entryKey ← fromUtf8 bytes
  if entryKey ≠ key then none
  let fields ← entry.get "value" >>= Json.asObject
  pure (valueBytes b64 (.obj fields))

def appGlobalBytes (appId : ℕ) (key : String) : Client (Option Bytes) := do
  if appId = 0 then bail "app_id must be > 0"
  let client ← algodClient
  match ← orAbsent "app_information" (algodCall (client.appCall appId)) with
  | none => pure none
  | some appInfo =>
    let v ← orBail "failed to serialize app info" appInfo
    let b64 := (← env).base64
    match v.get "params" >>= Json.asObject with
    | none => pure none
    | some params =>
      pure ((arrayField (.obj params) "global_state" "global-state").findSome?
        (globalEntryBytes b64 key)).join

/-- The counts of uints and byte slices in an application's local state. -/
def getAppLocalSchema (appId : ℕ) : Client (ℕ × ℕ) := do
  if appId = 0 then bail "app_id must be > 0"
  let client ← algodClient
  let appInfo ← context "application_information failed" (algodCall (client.appCall appId))
  let v ← orBail "failed to serialize application info" appInfo
  let schema ← require s!"local-state-schema missing for app_id {appId}"
    (v.get "params" >>= fun p => jsonGet p "local-state-schema" "local_state_schema")
  let numUints := (jsonGet schema "num-uint" "num_uint" >>= Json.asU64).getD 0
  let numByteSlices := (jsonGet schema "num-byte-slice" "num_byte_slice" >>= Json.asU64).getD 0
  pure (numUints, numByteSlices)

def localStateForAccount (appId : ℕ) (accountAddress : String) :
    Client (Option (List (String × String))) := do
  let client ← algodClient
  let address ← parseAddress accountAddress
  match ← orAbsent "account_information" (algodCall (client.accountCall address)) with
  | none => pure none
  | some info =>
    let v ← orBail "failed to serialize account info" info.value
    pure (decodeAppLocalState (← env).base64 v appId)

/-- Whether a reply lists a holding of the asset. -/
def holdsAsset (v : Json) (assetId : ℕ) : Bool :=
  (holdings v).any fun holding => holdingAssetId holding = assetId

/-- Every failed call is read as "not opted in". -/
def isAccountOptedInToAsset (accountAddress : String) (assetId : ℕ) : Client Bool := do
  if assetId = 0 then bail "asset_id must be > 0"
  let client ← algodClient
  let address ← parseAddress accountAddress
  match ← resultOf (algodCall (client.accountCall address)) with
  | .error _ => pure false
  | .ok info =>
    let v ← orBail "failed to serialize account info" info.value
    pure (holdsAsset v assetId)

def assetHolding (accountAddress : String) (assetId : ℕ) : Client ℕ := do
  let client ← algodClient
  let address ← parseAddress accountAddress
  let info ← context "failed to fetch account information" (algodCall (client.accountCall address))
  let v ← orBail "failed to serialize account info" info.value
  pure (parseHoldingAmountFromAccountValue v assetId)

/-- An account's balance and the balance it must keep. -/
structure AlgoAccountFunds where
  amount : ℕ
  minBalance : ℕ
deriving DecidableEq, Repr

def accountFunds (accountAddress : String) : Client AlgoAccountFunds := do
  let client ← algodClient
  let address ← parseAddress accountAddress
  let info ← orUnreachable "account_funds"
    (Error.contextualize s!"failed to fetch account information for {accountAddress}")
    (algodCall (client.accountCall address))
  pure { amount := info.amount, minBalance := info.minBalance }

def microalgosAt (accountAddress : String) : Client ℕ := do
  let client ← algodClient
  let address ← parseAddress accountAddress
  let info ← context s!"failed to fetch account information for {accountAddress}"
    (algodCall (client.accountCall address))
  pure info.amount

/-! ## The node -/

/-- The last committed round. -/
def round : Client ℕ := do
  let client ← algodClient
  let status ← orUnreachable "node_status" (Error.contextualize "failed to get node status")
    (algodCall client.statusCall)
  pure status.lastRound

/-- What a plain GET of a text ends in: the body, or whether the host is unreachable and why. -/
def fetchedBody : Except SendError HttpResponse → Except (Bool × String) String
  | .error e => .error (e.unreachable, e.text)
  | .ok response =>
    match response.body with
    | .error e => .error (false, e)
    | .ok body =>
      if 200 ≤ response.status ∧ response.status < 300 then .ok body
      else .error (false, s!"HTTP {response.statusText}: {body}")

/-- The reply behind a plain GET. -/
def getReply : Except SendError HttpResponse → Reply
  | .error e => .failed ⟨.transport, e.text⟩
  | .ok response =>
    match response.body with
    | .error e => .failed ⟨.undecoded, e⟩
    | .ok body =>
      if 200 ≤ response.status ∧ response.status < 300 then .ok
      else .failed ⟨.http response.status, s!"HTTP {response.statusText}: {body}"⟩

/-- The request for a block in JSON. -/
def blockFut (c : Session) (round : ℕ) : Fut (Except SendError HttpResponse) :=
  let url :=
    s!"{c.ops.config.clientApiUrl}:{c.ops.config.clientApiPort}/v2/blocks/{round}?format=json"
  let token := c.ops.config.token.getD ""
  let tokenHeader := c.ops.config.tokenKey.getD "X-Algo-API-Token"
  { request := .get url tokenHeader token
    settle := c.env.httpGet url tokenHeader token
    reply := getReply }

/-- The seed in a block's header, which is 32 bytes. -/
def parseBlockHeaderSeed (e : Env) (body : String) (round : ℕ) : Except Error Bytes := do
  let text ← (e.readBlockSeed body).mapError fun e =>
    .text s!"failed to parse block {round} header seed: {e}"
  let seed ← (e.base64.decode text).mapError fun e =>
    .text s!"block {round} seed is not valid base64: {e}"
  if seed.length ≠ 32 then
    .error (.text s!"block {round} seed is {seed.length} bytes, expected 32")
  else .ok seed

/-- The seed of a block. The request goes straight to the runtime: no limit is applied to it. -/
def blockSeed (c : Session) (round : ℕ) : Proc World Error Bytes := do
  let response ← rtBlockOn c "algod call" (blockFut c round)
  match fetchedBody response with
  | .ok body => Proc.ofExcept (parseBlockHeaderSeed c.env body round)
  | .error (true, message) => Proc.raise (.typed (.unreachable "block" message))
  | .error (false, message) => Proc.raise (.text s!"failed to fetch block {round}: {message}")

/-- What a payment builder needs of the suggested parameters. -/
structure AlgoSuggestedParams where
  lastRound : ℕ
  minFee : ℕ
  genesisHash : Wire.Field 32
  genesisId : String
deriving DecidableEq

def suggestedParams : Client AlgoSuggestedParams := do
  let client ← algodClient
  let params ← orUnreachable "suggested_params"
    (Error.contextualize "failed to fetch suggested params") (algodCall client.suggestedParamsCall)
  pure
    { lastRound := params.lastRound
      minFee := params.minFee
      genesisHash := params.genesisHash
      genesisId := params.genesisId }

/-! ## Transactions -/

/-- Broadcast a signed transaction. -/
def submitSigned (signedTxn : Bytes) : Client String := do
  if signedTxn.isEmpty then bail "signed_txn must not be empty"
  let client ← algodClient
  let response ← orUnreachable "send_raw" (Error.contextualize "send_raw failed")
    (algodCall (client.sendRawCall signedTxn))
  pure response.txId

/-- A pending or confirmed transaction; the round is zero while it is pending. -/
structure ConfirmedTxn where
  confirmedRound : ℕ
  note : Option Bytes
deriving DecidableEq, Repr

/-- A pending or confirmed transaction. A quota rejection is passed on; every other error but an
unreachable host is read as an unknown transaction. -/
def confirmedTransaction (txid : String) : Client (Option ConfirmedTxn) := do
  if (Text.trim txid).isEmpty then bail "txid must not be empty"
  let client ← algodClient
  match ← resultOf (algodCall (client.pendingTransactionCall txid)) with
  | .error e =>
    if e.isHostUnreachable then
      Confined.raise (.typed (.unreachable "pending_transaction" e.display))
    else if e.downcast.any AlgoError.isQuota then Confined.raise e
    else pure none
  | .ok response =>
    let confirmedRound := response.confirmedRound.getD 0
    match response.txn with
    | none => pure (some { confirmedRound, note := none })
    | some txn =>
      let v ← orBail "failed to serialize pending transaction" txn
      let b64 := (← env).base64
      let note := v.get "note" >>= Json.asStr >>= fun s => (b64.decode s).toOption
      pure (some { confirmedRound, note })

/-! ## Applications, assets and programs -/

/-- The creator in the cache; a poisoned cache holds none. -/
def cachedAppCreator (appId : ℕ) : Client (Option String) :=
  Confined.read fun _ w =>
    if w.appCreators.poisoned then none else w.appCreators.value.lookup appId

/-- Read the creator from algod. -/
def fetchAppCreator (appId : ℕ) : Client String := do
  let client ← algodClient
  let appInfo ← context s!"failed to fetch application {appId} info"
    (algodCall (client.appCall appId))
  let v ← orBail "failed to serialize application info" appInfo
  require s!"application {appId} info did not contain a creator field"
    (parseAppCreatorFromAppInfoValue v)

/-- Put a creator in the cache. -/
def cacheAppCreator (appId : ℕ) (creator : String) : Client Unit where
  run _ w :=
    if w.appCreators.poisoned then (.err (.text "app creator cache lock poisoned"), w)
    else
      let creators := (appId, creator) :: w.appCreators.value.filter (·.1 ≠ appId)
      (.ok (), { w with appCreators := ⟨creators, false⟩ })
  respects _ w := by
    dsimp only
    split_ifs
    · exact refl_of _ w
    · exact Meter.Reaches.of_quiet ⟨rfl, rfl, rel_budget_refl _, rel_waited_refl _⟩

/-- An application's creator, which never changes: only the first call for it reads algod. -/
def appCreator (appId : ℕ) : Client String := do
  if appId = 0 then bail "app_id must be > 0"
  match ← cachedAppCreator appId with
  | some creator => pure creator
  | none =>
    let creator ← fetchAppCreator appId
    cacheAppCreator appId creator
    pure creator

def assetClawback (assetId : ℕ) : Client (Option String) := do
  if assetId = 0 then bail "asset_id must be > 0"
  let client ← algodClient
  let assetInfo ← context s!"failed to fetch asset {assetId} info"
    (algodCall (client.assetCall assetId))
  let v ← orBail "failed to serialize asset info" assetInfo
  pure (parseClawbackFromAssetInfoValue v)

/-- `str::strip_prefix` of `base64:`. -/
def stripBase64Prefix (source : String) : Option String :=
  if "base64:".toList.isPrefixOf source.toList then
    some (String.ofList (source.toList.drop 7))
  else none

/-- Compile a program; one that is given compiled, in base64, is only decoded. -/
def compileTeal (source : String) : Client Bytes := do
  if source.isEmpty then bail "source must not be empty"
  match stripBase64Prefix source with
  | some rest => orBail "invalid base64 program" ((← env).base64.decode rest)
  | none =>
    let client ← algodClient
    algodCall (client.tealCompileCall (utf8 source))

end BlockchainOps.Algo
