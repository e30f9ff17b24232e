import BlockchainOps.Algo.AccountScan
import BlockchainOps.Algo.NoteSearch
import BlockchainOps.Algo.TxnScan

/-!
# The cached scans of a client

The page fetchers of the cached scans, and the engines run with them. The engines work on a cache
of the caller and are metered because their fetchers are (`txnScanBody_respects`,
`accountScanBody_respects`).
-/

namespace BlockchainOps.Algo

open Effect Proc Paging

variable {α σ T : Type}

/-! ## Transactions -/

/-- What the indexer is to narrow a transaction scan to. -/
structure TxnScanFilter where
  notePrefix : Option Bytes
  sender : Option String
  appId : Option ℕ
deriving DecidableEq, Repr

/-- A filter as the indexer takes it. -/
structure PreparedScanFilter where
  notePrefix : Option String
  address : Option Address
  appId : Option ℕ
deriving DecidableEq

def TxnScanFilter.prepare (filter : TxnScanFilter) : Client PreparedScanFilter := do
  let notePrefix := filter.notePrefix.map (← env).base64.encode
  let address ← match filter.sender with
    | some sender => do pure (some (← parseAddress sender))
    | none => pure none
  pure { notePrefix, address, appId := filter.appId }

/-- A confirmed transaction; an unconfirmed one is dropped. -/
def scannedTxn (txn : IndexerTransaction) : Option ScannedTxn := do
  let confirmedRound ← confirmedIn txn
  pure { confirmedRound, sender := txn.sender, note := txn.note }

/-- One page of a transaction scan. -/
def fetchScanPage (client : Indexer) (filter : PreparedScanFilter) (minRound : Option ℕ)
    (next : Option String) : Client TxnScanPage := do
  let response ← searchForTransactions client
    { next
      notePrefix := filter.notePrefix
      minRound
      address := filter.address
      addressRole := filter.address.map fun _ => "sender"
      applicationId := filter.appId }
  pure
    { txns := response.items.filterMap scannedTxn
      nextToken := nextPageToken response.nextToken
      currentRound := response.currentRound }

/-! ## Accounts -/

/-- What an account read leaves out. -/
def accountScanExcludes : Option (List String) :=
  some ["assets", "created-apps", "created-assets"]

/-- An account with its local state, which is empty where it has none. -/
def scannedAccountFrom (b64 : Base64) (accountJson : Json) (appId : ℕ) : ScannedAccount where
  address := (accountJson.get "address" >>= Json.asStr).getD ""
  localState := (decodeAppLocalState b64 accountJson appId).getD []

/-- One page of a full account scan. -/
def fetchAccountPage (client : Indexer) (appId : ℕ) (next : Option String) :
    Client AccountScanPage := do
  let response ← orUnreachable "search_for_accounts" id
    (indexerCall (client.searchForAccountsCall
      { next, exclude := accountScanExcludes, applicationId := some appId }))
  let b64 := (← env).base64
  let accounts ← Confined.forEach (fun acct => do
    let v ← orBail "failed to serialize account" acct
    pure (scannedAccountFrom b64 v appId)) response.items
  pure
    { accounts
      nextToken := nextPageToken response.nextToken
      currentRound := response.currentRound }

mutual

/-- Every address a transaction touched: its sender, the accounts an application call refers to,
and those of the inner transactions. -/
def collectChangedAddresses (txn : IndexerTransaction) : List String :=
  match txn with
  | ⟨_, sender, _, applicationTransaction, innerTxns⟩ =>
    sender :: (applicationTransaction.bind (·.accounts)).getD [] ++
      match innerTxns with
      | some txns => collectAllChanged txns
      | none => []

def collectAllChanged : List IndexerTransaction → List String
  | [] => []
  | txn :: txns => collectChangedAddresses txn ++ collectAllChanged txns

end

/-- One page of change discovery. -/
def fetchChangedAddressesPage (client : Indexer) (appId minRound : ℕ) (next : Option String) :
    Client ChangedAddressesPage := do
  let response ← searchForTransactions client
    { next
      notePrefix := none
      minRound := some minRound
      address := none
      addressRole := none
      applicationId := some appId }
  pure
    { addresses := collectAllChanged response.items
      nextToken := nextPageToken response.nextToken
      currentRound := response.currentRound }

/-- Re-read one account: `none` once it has no local state for the application, or is gone. -/
def lookupOptedInAccount (client : Indexer) (appId : ℕ) (address : String) :
    Client (Option ScannedAccount) := do
  let addr ← parseAddress address
  match ← resultOf (indexerCall (client.lookupAccountByIdCall addr accountScanExcludes)) with
  | .error e =>
    if e.downcast.any (·.status = some 404) then pure none
    else if e.isHostUnreachable then
      Confined.raise (.typed (.unreachable "lookup_account_by_id" e.display))
    else Confined.raise e
  | .ok acct =>
    let v ← orBail "failed to serialize account" acct.value
    pure ((decodeAppLocalState (← env).base64 v appId).map fun localState =>
      { address := acct.address, localState })

/-! ## The engines -/

section Respects

variable {R : σ → σ → Prop} [Std.Refl R] [IsTrans σ R] (fuel : ℕ) (mode : QueryMode)
  (lifetime : Option ℕ) (now : ℕ)

theorem txnFetchFrom_respects :
    Respects (InvImage R Prod.snd)
      (txnFetchFrom mode lifetime now : Proc (TxnScanCache T × σ) Error (Option (Option ℕ))) := by
  refine Respects.get.bind fun s => ?_
  cases mode with
  | cacheOnly => exact Respects.pure _
  | forceFull => exact (Respects.modifyFst _).bind fun _ => Respects.pure _
  | refresh =>
    dsimp only
    split_ifs
    · exact Respects.pure _
    · exact Respects.pure _
    · exact (Respects.ofOutcome _).bind fun _ => Respects.pure _

theorem txnScanBody_respects (ingest : ScannedTxn → Option T)
    {fetchPage : Option ℕ → Option String → Proc σ Error TxnScanPage}
    (hfetch : ∀ minRound token, Respects R (fetchPage minRound token)) :
    Respects (InvImage R Prod.snd) (txnScanBody fuel mode lifetime now ingest fetchPage) := by
  refine (txnFetchFrom_respects mode lifetime now).bind fun from? => ?_
  cases from? with
  | none => exact Respects.pure _
  | some minRound =>
    refine Respects.get.bind fun s => ?_
    refine (pageLoop_respects _ _ _ _ (hfetch minRound)).bind fun watermark => ?_
    exact Respects.modifyFst _

theorem accountScanKind_respects :
    Respects (InvImage R Prod.snd)
      (accountScanKind mode lifetime now : Proc (AccountScanCache T × σ) Error (Option Bool)) := by
  refine Respects.get.bind fun s => ?_
  cases mode with
  | cacheOnly => exact Respects.pure _
  | forceFull => exact (Respects.modifyFst _).bind fun _ => Respects.pure _
  | refresh =>
    dsimp only
    split_ifs
    · exact Respects.pure _
    · exact Respects.pure _
    · exact Respects.pure _

theorem accountScanBody_respects (ingest : ScannedAccount → Option T)
    {fetchFullPage : Option String → Proc σ Error AccountScanPage}
    {fetchChanged : ℕ → Option String → Proc σ Error ChangedAddressesPage}
    {lookupAccount : String → Proc σ Error (Option ScannedAccount)}
    (hfull : ∀ token, Respects R (fetchFullPage token))
    (hchanged : ∀ minRound token, Respects R (fetchChanged minRound token))
    (hlookup : ∀ address, Respects R (lookupAccount address)) :
    Respects (InvImage R Prod.snd)
      (accountScanBody fuel mode lifetime now ingest fetchFullPage fetchChanged lookupAccount) := by
  refine (accountScanKind_respects mode lifetime now).bind fun kind => ?_
  rcases kind with _ | _ | _
  · exact Respects.pure _
  · refine Respects.get.bind fun s => ?_
    refine (Respects.ofOutcome _).bind fun minRound => ?_
    refine (pageLoop_respects _ _ _ _ (hchanged minRound)).bind fun changed => ?_
    refine (visitAll_respects _ _ hlookup).bind fun _ => ?_
    exact Respects.modifyFst _
  · refine (Respects.modifyFst _).bind fun _ => ?_
    refine (pageLoop_respects _ _ _ _ hfull).bind fun watermark => ?_
    exact Respects.modifyFst _

end Respects

/-- Refresh a caller's transaction cache. The engine's result comes with the cache it leaves; an
error before the engine runs leaves the cache alone. -/
def fetchTransactionsCached (cache : Mutex (TxnScanCache T)) (filter : TxnScanFilter)
    (mode : QueryMode) (cacheLifetimeSecs : Option ℕ) (ingest : ScannedTxn → Option T) :
    Client (Except Error Unit × Mutex (TxnScanCache T)) := do
  let client ← indexerClient
  let prepared ← filter.prepare
  let now ← nowUnixSecs
  Confined.owning cache
    (fun c => attempt (fetchTransactionsCachedWith c.env.fuel mode cacheLifetimeSecs now ingest
      fun minRound next => (fetchScanPage client prepared minRound next).run c))
    fun c => Respects.attempt (Respects.withLock (txnScanBody_respects _ _ _ _ _
      fun minRound next => (fetchScanPage client prepared minRound next).respects c))

/-- Refresh a caller's cache of the accounts opted into an application. -/
def fetchOptedInAccountsCached (appId : ℕ) (cache : Mutex (AccountScanCache T)) (mode : QueryMode)
    (cacheLifetimeSecs : Option ℕ) (ingest : ScannedAccount → Option T) :
    Client (Except Error Unit × Mutex (AccountScanCache T)) := do
  if appId = 0 then bail "app_id must be > 0"
  let client ← indexerClient
  let now ← nowUnixSecs
  Confined.owning cache
    (fun c => attempt (fetchOptedInAccountsCachedWith c.env.fuel mode cacheLifetimeSecs now ingest
      (fun next => (fetchAccountPage client appId next).run c)
      (fun minRound next => (fetchChangedAddressesPage client appId minRound next).run c)
      fun address => (lookupOptedInAccount client appId address).run c))
    fun c => Respects.attempt (Respects.withLock (accountScanBody_respects _ _ _ _ _
      (fun next => (fetchAccountPage client appId next).respects c)
      (fun minRound next => (fetchChangedAddressesPage client appId minRound next).respects c)
      fun address => (lookupOptedInAccount client appId address).respects c))

end BlockchainOps.Algo
