import BlockchainOps.Algo.Scans
import BlockchainOps.Algo.TransactionGroup

/-!
# The operations of a client

Every public operation that talks to algod or the indexer. All operations but `blockSeed` are
written as `Client` programs, so their runs are metered; `blockSeed` sends a request that no limit
sees.
-/

namespace BlockchainOps.Algo

open Effect Proc

variable {α T : Type}

/-- A public operation that makes requests, with its arguments. -/
inductive Operation : Type → Type 1
  | algodCall {α : Type} (call : NodeCall α) : Operation α
  | indexerCall {α : Type} (call : NodeCall α) : Operation α
  | accountBalance : Operation (Option ℚ)
  | globalState (maybeAppId : Option ℕ) : Operation (Option (List (ℕ × List (String × String))))
  | appGlobalBytes (appId : ℕ) (key : String) : Operation (Option Bytes)
  | getAppLocalSchema (appId : ℕ) : Operation (ℕ × ℕ)
  | localStateForAccount (appId : ℕ) (accountAddress : String) :
      Operation (Option (List (String × String)))
  | sendAlgo (toAddress : String) (amountAlgos : ℚ) : Operation Unit
  | createAsset (name : String) (unitsInIssue : ℕ) : Operation (Option ℕ)
  | createAssetConfigured (name : String) (unitsInIssue : ℕ)
      (managerAddr reserveAddr clawbackAddr freezeAddr : String) : Operation (Option ℕ)
  | createAssetWithReserveApp (name : String) (unitsInIssue appId : ℕ) : Operation (Option ℕ)
  | isAccountOptedInToAsset (accountAddress : String) (assetId : ℕ) : Operation Bool
  | assetHolding (accountAddress : String) (assetId : ℕ) : Operation ℕ
  | accountFunds (accountAddress : String) : Operation AlgoAccountFunds
  | microalgosAt (accountAddress : String) : Operation ℕ
  | round : Operation ℕ
  | blockSeed (round : ℕ) : Operation Bytes
  | suggestedParams : Operation AlgoSuggestedParams
  | submitSigned (signedTxn : Bytes) : Operation String
  | confirmedTransaction (txid : String) : Operation (Option ConfirmedTxn)
  | findTransactionByNote (note : Bytes) : Operation (Option ConfirmedTxn)
  | findTransactionByNoteAndSender (note : Bytes) (sender : String) :
      Operation (Option ConfirmedTxn)
  | findTransactionByNotePrefix (pre : Bytes) : Operation (Option ConfirmedTxn)
  | findTransactionByNotePrefixAndSender (pre : Bytes) (sender : String) :
      Operation (Option ConfirmedTxn)
  | findTransactionsByNotePrefix (pre : Bytes) : Operation (List ConfirmedTxn)
  | findTransactionsByNotePrefixAndSender (pre : Bytes) (sender : String) :
      Operation (List ConfirmedTxn)
  | fetchTransactionsCached {T : Type} (cache : Mutex (TxnScanCache T)) (filter : TxnScanFilter)
      (mode : QueryMode) (cacheLifetimeSecs : Option ℕ) (ingest : ScannedTxn → Option T) :
      Operation (Except Error Unit × Mutex (TxnScanCache T))
  | fetchOptedInAccountsCached {T : Type} (appId : ℕ) (cache : Mutex (AccountScanCache T))
      (mode : QueryMode) (cacheLifetimeSecs : Option ℕ) (ingest : ScannedAccount → Option T) :
      Operation (Except Error Unit × Mutex (AccountScanCache T))
  | setAssetClawbackToApp (appId assetId : ℕ) : Operation Unit
  | changeAssetReserveAddress (assetId : ℕ) (reserveAddress : String) : Operation Unit
  | sendAsset (assetId amount : ℕ) (toAddress : String) : Operation Unit
  | optInToAsset (assetId : ℕ) : Operation Unit
  | appCreator (appId : ℕ) : Operation String
  | assetClawback (assetId : ℕ) : Operation (Option String)
  | recoverReserveBalance (assetId : ℕ) : Operation Unit
  | compileTeal (source : String) : Operation Bytes
  | deployApp (approvalProgram clearStateProgram : Bytes) (assetId : Option ℕ)
      (method : Option String) (args : List AppArg) (optInMethodName arc56Json : String) :
      Operation (Option ℕ)
  | deployAppReserving (approvalProgram clearStateProgram : Bytes) (assetId : Option ℕ)
      (method : Option String) (args : List AppArg) (optInMethodName arc56Json : String)
      (reserveExtraPages : ℕ) : Operation (Option ℕ)
  | updateApp (appId : ℕ) (approvalProgram clearStateProgram : Bytes) (assetId : Option ℕ) :
      Operation (Option ℕ)
  | callApp (appId : ℕ) (assetId : Option ℕ) (method : Option String) (args : List AppArg) :
      Operation (String × List Bytes)
  | callAppRawArgs (appId : ℕ) (assetId : Option ℕ) (method : Option String)
      (args : List AppArg) : Operation (String × List Bytes)
  | callAppArc4Args (appId : ℕ) (assetId : Option ℕ) (method : Option String)
      (args : List AppArg) : Operation (String × List Bytes)
  | callAppWithAccounts (appId : ℕ) (assetId : Option ℕ) (method : Option String)
      (args : List AppArg) (extraAccounts : List String) : Operation (String × List Bytes)
  | callAppWithForeignApp (appId foreignAppId : ℕ) (assetId : Option ℕ) (method : Option String)
      (args : List AppArg) : Operation (String × List Bytes)
  | optInApp (appId : ℕ) : Operation Unit
  | clearStateApp (appId : ℕ) : Operation Unit
  | closeOutApp (appId : ℕ) : Operation Unit
  | deleteApp (appId : ℕ) : Operation Unit
  | optInAppToAsset (appId assetId : ℕ) (optInMethodName : String) : Operation String
  | waitForConfirmation (txId : String) (timeoutRounds : ℕ) : Operation Unit
  | signAndSend (group : TransactionGroupBuilder) : Operation String

namespace Operation

/-- What an operation does: a metered program, or a bare procedure. -/
def program : Operation α → Client α ⊕ (Session → Proc World Error α)
  | algodCall call => .inl (Algo.algodCall call)
  | indexerCall call => .inl (Algo.indexerCall call)
  | accountBalance => .inl Algo.accountBalance
  | globalState maybeAppId => .inl (Algo.globalState maybeAppId)
  | appGlobalBytes appId key => .inl (Algo.appGlobalBytes appId key)
  | getAppLocalSchema appId => .inl (Algo.getAppLocalSchema appId)
  | localStateForAccount appId account => .inl (Algo.localStateForAccount appId account)
  | sendAlgo toAddress amount => .inl (Algo.sendAlgo toAddress amount)
  | createAsset name units => .inl (Algo.createAsset name units)
  | createAssetConfigured name units manager reserve clawback freeze =>
    .inl (Algo.createAssetConfigured name units manager reserve clawback freeze)
  | createAssetWithReserveApp name units appId =>
    .inl (Algo.createAssetWithReserveApp name units appId)
  | isAccountOptedInToAsset account assetId => .inl (Algo.isAccountOptedInToAsset account assetId)
  | assetHolding account assetId => .inl (Algo.assetHolding account assetId)
  | accountFunds account => .inl (Algo.accountFunds account)
  | microalgosAt account => .inl (Algo.microalgosAt account)
  | round => .inl Algo.round
  | blockSeed blockRound => .inr fun c => Algo.blockSeed c blockRound
  | suggestedParams => .inl Algo.suggestedParams
  | submitSigned signedTxn => .inl (Algo.submitSigned signedTxn)
  | confirmedTransaction txid => .inl (Algo.confirmedTransaction txid)
  | findTransactionByNote note => .inl (Algo.findTransactionByNote note)
  | findTransactionByNoteAndSender note sender =>
    .inl (Algo.findTransactionByNoteAndSender note sender)
  | findTransactionByNotePrefix pre => .inl (Algo.findTransactionByNotePrefix pre)
  | findTransactionByNotePrefixAndSender pre sender =>
    .inl (Algo.findTransactionByNotePrefixAndSender pre sender)
  | findTransactionsByNotePrefix pre => .inl (Algo.findTransactionsByNotePrefix pre)
  | findTransactionsByNotePrefixAndSender pre sender =>
    .inl (Algo.findTransactionsByNotePrefixAndSender pre sender)
  | fetchTransactionsCached cache filter mode lifetime ingest =>
    .inl (Algo.fetchTransactionsCached cache filter mode lifetime ingest)
  | fetchOptedInAccountsCached appId cache mode lifetime ingest =>
    .inl (Algo.fetchOptedInAccountsCached appId cache mode lifetime ingest)
  | setAssetClawbackToApp appId assetId => .inl (Algo.setAssetClawbackToApp appId assetId)
  | changeAssetReserveAddress assetId reserve =>
    .inl (Algo.changeAssetReserveAddress assetId reserve)
  | sendAsset assetId amount toAddress => .inl (Algo.sendAsset assetId amount toAddress)
  | optInToAsset assetId => .inl (Algo.optInToAsset assetId)
  | appCreator appId => .inl (Algo.appCreator appId)
  | assetClawback assetId => .inl (Algo.assetClawback assetId)
  | recoverReserveBalance assetId => .inl (Algo.recoverReserveBalance assetId)
  | compileTeal source => .inl (Algo.compileTeal source)
  | deployApp approval clear assetId method args optIn arc56 =>
    .inl (Algo.deployApp approval clear assetId method args optIn arc56)
  | deployAppReserving approval clear assetId method args optIn arc56 pages =>
    .inl (Algo.deployAppReserving approval clear assetId method args optIn arc56 pages)
  | updateApp appId approval clear assetId => .inl (Algo.updateApp appId approval clear assetId)
  | callApp appId assetId method args => .inl (Algo.callApp appId assetId method args)
  | callAppRawArgs appId assetId method args =>
    .inl (Algo.callAppRawArgs appId assetId method args)
  | callAppArc4Args appId assetId method args =>
    .inl (Algo.callAppArc4Args appId assetId method args)
  | callAppWithAccounts appId assetId method args accounts =>
    .inl (Algo.callAppWithAccounts appId assetId method args accounts)
  | callAppWithForeignApp appId foreignAppId assetId method args =>
    .inl (Algo.callAppWithForeignApp appId foreignAppId assetId method args)
  | optInApp appId => .inl (Algo.optInApp appId)
  | clearStateApp appId => .inl (Algo.clearStateApp appId)
  | closeOutApp appId => .inl (Algo.closeOutApp appId)
  | deleteApp appId => .inl (Algo.deleteApp appId)
  | optInAppToAsset appId assetId optIn => .inl (Algo.optInAppToAsset appId assetId optIn)
  | waitForConfirmation txId rounds => .inl (Algo.waitForConfirmation txId rounds)
  | signAndSend group => .inl group.signAndSend

/-- An operation at work. -/
def run (c : Session) (op : Operation α) : Proc World Error α :=
  match op.program with
  | .inl x => x.run c
  | .inr x => x c

/-- The operation reads a block's seed. -/
def isBlockSeed : Operation α → Bool
  | blockSeed _ => true
  | _ => false

/-- Every other operation is a metered program. -/
theorem program_eq_inl (op : Operation α) (h : op.isBlockSeed = false) :
    ∃ x, op.program = .inl x := by
  cases op with
  | blockSeed blockRound => exact absurd h (by simp [isBlockSeed])
  | _ => exact ⟨_, rfl⟩

theorem respects (c : Session) (op : Operation α) (h : op.isBlockSeed = false) :
    Respects (requestMeter c).Reaches (op.run c) := by
  obtain ⟨x, hx⟩ := op.program_eq_inl h
  unfold run
  rw [hx]
  exact x.respects c

end Operation

/-! ## What a run sends -/

variable {c : Session} {s t : World} {rs : List Request}

/-- A run sends the requests it is a run of. -/
theorem sent_of_run (h : (requestMeter c).Run s rs t) : t.sent = s.sent ++ rs := by
  refine h.history World.sent ?_ ?_ ?_
  · exact fun s t (hquiet : Quiet s t) => hquiet.sent
  · exact fun s t (hgrant : Granted c s t) => hgrant.sent
  · rintro r s _ ⟨reply, rfl⟩
    exact World.record_sent _ s

/-- Reading a block's seed leaves a note of its request, and nothing else. -/
theorem blockSeed_snd (c : Session) (blockRound : ℕ) (w : World) :
    (blockSeed c blockRound w).2
      = w.record (c.block "algod call" (blockFut c blockRound) w.moment).2 := by
  have hsnd := rtBlockOn_snd c "algod call" (blockFut c blockRound) w
  unfold blockSeed
  rw [bind_apply]
  rcases hrun : rtBlockOn c "algod call" (blockFut c blockRound) w with ⟨o, t⟩
  rw [hrun] at hsnd
  cases o with
  | ok response =>
    rw [← hsnd]
    dsimp only
    rcases fetchedBody response with ⟨_ | _, message⟩ | body
    · rfl
    · rfl
    · show (ofExcept (parseBlockHeaderSeed c.env body blockRound) t).2 = t
      cases parseBlockHeaderSeed c.env body blockRound <;> rfl
  | err e => exact hsnd
  | stop why => exact hsnd

/-! ## A client of the local network -/

namespace LocalNode

/-- A node that answers nothing. -/
def silent : Algod where
  account _ _ := .never
  app _ _ := .never
  asset _ _ := .never
  status _ := .never
  statusAfterBlock _ _ := .never
  suggestedParams _ := .never
  sendRaw _ _ := .never
  sendTransactions _ _ := .never
  pendingTransaction _ _ := .never
  tealCompile _ _ := .never

/-- A client of the local network without an account, where the node answers as `algod` does. -/
def session (algod : Algod) : Session where
  ops :=
    { passphrase := none, address := none, config := .default, timeout := none }
  env :=
    { keys :=
        { sha512_256 := id
          base32NopadEncode := fun _ => ""
          verifyingKey := id
          sign := fun _ _ => .replicate 64 0
          base32NopadDecode := fun _ => .error "invalid"
          mnemonicToKey := fun _ => .error "invalid"
          base64Decode := fun _ => .error "invalid" }
      base64 := Base64.standard
      algonaut :=
        { parseAddress := fun _ => .ok ⟨.replicate 32 0⟩
          addressText := fun _ => ""
          build := fun _ _ => .error "invalid"
          estimateBasicSigSize := fun _ => .error "invalid"
          sign := fun _ _ => .error "invalid"
          toMsgPack := fun _ => .error "invalid"
          assignGroup := fun _ => .error "invalid"
          bytesToSign := fun program => utf8 "Program" ++ program }
      newAlgod := fun _ _ => .ok algod
      newIndexer := fun _ _ => .error "invalid"
      httpGet := fun _ _ _ _ => .done 0 (.ok ⟨200, "200 OK", .ok "{}"⟩)
      parseJson := fun _ => .error "invalid"
      readBlockSeed := fun _ => .error "invalid"
      unixSecs := fun _ => 86400
      instant := fun moment => moment
      uuid := fun _ => .replicate 16 0
      runtimeFailure := fun _ => none
      inRuntime := false
      fuel := 1 }

/-- The world at first, with a daily budget of `max` requests. -/
def world (max : ℕ) : World where
  rateLimiter := none
  dailyBudget := some (.new { maxRequestsPerDay := max, dayStartOffsetSecs := 0 } 86400 0)
  requestsMade := 0
  appCreators := .new []
  log := []
  moment := 0

/-- A node that is at round 7. -/
def atRound7 : Algod := { silent with status := fun _ => .done 0 (.ok ⟨7⟩) }

end LocalNode

end BlockchainOps.Algo
