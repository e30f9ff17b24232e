import BlockchainOps.Algo.Conduct
import BlockchainOps.Algo.Operations

/-!
# What is asked of a client

Each operation is a mandate: the requests that the caller hands over, and the transactions that its
arguments ask for. What an operation looks up of its transaction (an application's creator, a
holding, the id of a new application) is what algod served it.
-/

namespace BlockchainOps.Algo

variable {α : Type}

/-! ## Lookups -/

namespace Session

variable (c : Session) (base : World)

/-- The creator of an application that was in the cache, or that algod reported since. -/
def Knows (appId : ℕ) (creator : String) : Prop :=
  (appId, creator) ∈ base.appCreators.value ∨ ∃ t, c.Reports base t appId creator

/-- The address of an application. -/
def Contract (appId : ℕ) (text : String) : Prop :=
  byteKeyToAddress c.env.keys.toAddressPrims
    (c.env.keys.sha512_256 (utf8 "appID" ++ Wire.beBytes 8 appId)) = .ok text

/-- Algod served an account that holds this much of an asset. -/
def Holds (account : Address) (assetId amount : ℕ) : Prop :=
  ∃ info v, c.Tells base (fun client => client.accountCall account) info ∧ info.value = .ok v ∧
    parseHoldingAmountFromAccountValue v assetId = amount

/-- The schemas of an app spec. -/
def Schemas (arc56Json : String) (gs ls : StateSchema) : Prop :=
  ∃ s t, (stateSchemaFromArc56 arc56Json).run c s = (.ok (gs, ls), t)

/-! ## Transactions -/

/-- A call of the application, which lists the application's creator as its last account. -/
def Calls (appId : ℕ) (assetId : Option ℕ) (foreignAppIds : List ℕ) (extraAccounts : List Address)
    (method : Option String) (args : List AppArg) (kind : TransactionKind) : Prop :=
  ∃ creatorText creator, c.Knows base appId creatorText ∧
    c.env.algonaut.parseAddress creatorText = .ok creator ∧
    kind = callKind c.env.keys appId assetId foreignAppIds (extraAccounts ++ [creator]) method args

/-- A new asset with the addresses that these texts name. -/
def Issues (unitsInIssue : ℕ) (managerAddr reserveAddr clawbackAddr freezeAddr : String)
    (kind : TransactionKind) : Prop :=
  ∃ manager reserve clawback freeze, c.env.algonaut.parseAddress managerAddr = .ok manager ∧
    c.env.algonaut.parseAddress reserveAddr = .ok reserve ∧
    c.env.algonaut.parseAddress clawbackAddr = .ok clawback ∧
    c.env.algonaut.parseAddress freezeAddr = .ok freeze ∧
    kind = .createAsset unitsInIssue 0 false
      { manager := some manager
        reserve := some reserve
        freeze := some freeze
        clawback := some clawback }

/-- The asset's reserve and clawback become `reserve`, and its manager the handle. -/
def Reconfigures (assetId : ℕ) (reserve : Address) (kind : TransactionKind) : Prop :=
  ∃ manager, c.At manager ∧ kind = .updateAsset assetId
    { manager := some manager, reserve := some reserve, freeze := none, clawback := some reserve }

/-- The asset's reserve and clawback become the application. -/
def SetsToApp (appId assetId : ℕ) (kind : TransactionKind) : Prop :=
  ∃ appText appAddr, c.Contract appId appText ∧ c.env.algonaut.parseAddress appText = .ok appAddr ∧
    c.Reconfigures assetId appAddr kind

/-- The asset's reserve and clawback become the new reserve, which is sent what the handle holds. -/
def ChangesReserve (assetId : ℕ) (reserveAddress : String) (kind : TransactionKind) : Prop :=
  (∃ reserve, c.env.algonaut.parseAddress reserveAddress = .ok reserve ∧
    c.Reconfigures assetId reserve kind) ∨
  ∃ creator amount, c.At creator ∧ c.Holds base creator assetId amount ∧
    (GroupLeg.assetTransfer assetId amount reserveAddress).Asks c.env kind

/-- The creator that algod served of an asset is sent what the asset's reserve, the handle, holds.
-/
def RecoversReserve (assetId : ℕ) (kind : TransactionKind) : Prop :=
  ∃ v creatorText reserveText reserve amount,
    c.Tells base (fun client => client.assetCall assetId) (.ok v) ∧
    parseCreatorReserveFromAssetInfoValue v = some (creatorText, reserveText) ∧
    c.ops.address = some reserveText ∧ c.env.algonaut.parseAddress reserveText = .ok reserve ∧
    c.Holds base reserve assetId amount ∧
    (GroupLeg.assetTransfer assetId amount creatorText).Asks c.env kind

/-- An application's opt-in to an asset, by one of its methods. -/
def OptsAppIn (appId assetId : ℕ) (optInMethodName : String) : TransactionKind → Prop :=
  c.Calls base appId (some assetId) [] [] (some optInMethodName) [.uint (UInt64.ofNat assetId)]

/-- A new application's funds, and its opt-in to an asset whose reserve and clawback it becomes. -/
def SetsUp (appId : ℕ) (assetId : Option ℕ) (optInMethodName : String) (kind : TransactionKind) :
    Prop :=
  (∃ appText, c.Contract appId appText ∧
    (GroupLeg.payment appText (microAlgos (321 / 100))).Asks c.env kind) ∨
  ∃ aid, assetId = some aid ∧ (c.OptsAppIn base appId aid optInMethodName kind ∨
    c.SetsToApp appId aid kind)

/-- A new application of these programs. -/
def Creates (approval clear : Bytes) (assetId : Option ℕ) (method : Option String)
    (args : List AppArg) (arc56Json : String) (reserveExtraPages : ℕ) (kind : TransactionKind) :
    Prop :=
  ∃ gs ls, c.Schemas arc56Json gs ls ∧
    let size := (c.env.algonaut.bytesToSign approval).length +
      (c.env.algonaut.bytesToSign clear).length
    let extraPages := extraPagesFor size reserveExtraPages
    let appArgs := (method.map (arc4Selector c.env.keys)).toList ++ args.map AppArg.toBytes
    kind = .createApplication approval clear gs ls
      (if 0 < extraPages then some extraPages else none) (assetId.map fun aid => [aid])
      (if appArgs.isEmpty then none else some appArgs)

/-- A new application, or the set-up of the one that algod served of the transaction. -/
def Deploys (approval clear : Bytes) (assetId : Option ℕ) (method : Option String)
    (args : List AppArg) (optInMethodName arc56Json : String) (reserveExtraPages : ℕ)
    (kind : TransactionKind) : Prop :=
  c.Creates approval clear assetId method args arc56Json reserveExtraPages kind ∨
  ∃ txId p v, c.Tells base (fun client => client.pendingTransactionCall txId) p ∧
    p.value = .ok v ∧ createdAppId v ≠ 0 ∧
    c.SetsUp base (createdAppId v) assetId optInMethodName kind

/-- What a leg of a group asks for. -/
def AsksLeg : GroupLeg → TransactionKind → Prop
  | .appCall appId method args foreignAsset foreignApp =>
    c.Calls base appId foreignAsset foreignApp.toList [] method args
  | leg => leg.Asks c.env

end Session

/-! ## Operations -/

namespace Operation

/-- The requests that a caller hands to an operation. -/
def hands : Operation α → Request → Prop
  | algodCall call, r => r = call.request
  | indexerCall call, r => r = call.request
  | submitSigned signedTxn, r => r = .sendRaw signedTxn
  | _, _ => False

/-- The transactions that an operation's arguments ask for. -/
def asks (c : Session) (base : World) : Operation α → TransactionKind → Prop
  | sendAlgo toAddress amountAlgos =>
    (GroupLeg.payment toAddress (microAlgos amountAlgos)).Asks c.env
  | createAsset _ unitsInIssue => fun kind => ∃ issuer, c.At issuer ∧
    kind = .createAsset unitsInIssue 0 false
      { manager := some issuer, reserve := some issuer, freeze := none, clawback := some issuer }
  | createAssetConfigured _ unitsInIssue manager reserve clawback freeze =>
    c.Issues unitsInIssue manager reserve clawback freeze
  | createAssetWithReserveApp _ unitsInIssue appId => fun kind => ∃ appText issuerText,
    c.Contract appId appText ∧ c.ops.address = some issuerText ∧
      c.Issues unitsInIssue issuerText appText appText issuerText kind
  | setAssetClawbackToApp appId assetId => c.SetsToApp appId assetId
  | changeAssetReserveAddress assetId reserveAddress =>
    c.ChangesReserve base assetId reserveAddress
  | sendAsset assetId amount toAddress =>
    (GroupLeg.assetTransfer assetId amount toAddress).Asks c.env
  | optInToAsset assetId => fun kind => ∃ self, c.At self ∧ kind = .transferAsset assetId 0 self
  | recoverReserveBalance assetId => c.RecoversReserve base assetId
  | deployApp approval clear assetId method args optIn arc56 =>
    c.Deploys base approval clear assetId method args optIn arc56 0
  | deployAppReserving approval clear assetId method args optIn arc56 pages =>
    c.Deploys base approval clear assetId method args optIn arc56 pages
  | updateApp appId approval clear assetId => fun kind =>
    kind = .updateApplication appId approval clear (assetId.map fun aid => [aid])
  | callApp appId assetId method args => c.Calls base appId assetId [] [] method args
  | callAppRawArgs appId assetId method args => c.Calls base appId assetId [] [] method args
  | callAppArc4Args appId assetId method args => fun kind => ∃ framed,
    arc4FrameArgs method args = .ok framed ∧ c.Calls base appId assetId [] [] method framed kind
  | callAppWithAccounts appId assetId method args extraAccounts => fun kind => ∃ accounts,
    List.Forall₂ (fun text a => c.env.algonaut.parseAddress text = .ok a) extraAccounts accounts ∧
      c.Calls base appId assetId [] accounts method args kind
  | callAppWithForeignApp appId foreignAppId assetId method args =>
    c.Calls base appId assetId [foreignAppId] [] method args
  | optInApp appId => fun kind => kind = .optInApplication appId
  | clearStateApp appId => fun kind => kind = .clearApplication appId
  | closeOutApp appId => fun kind => kind = .closeApplication appId
  | deleteApp appId => fun kind => kind = .deleteApplication appId
  | optInAppToAsset appId assetId optIn => c.OptsAppIn base appId assetId optIn
  | _ => fun _ => False

/-- The groups that an operation's arguments ask for: one transaction for each leg. -/
def asksGroup (c : Session) (base : World) : Operation α → List TransactionKind → Prop
  | signAndSend group => List.Forall₂ (c.AsksLeg base) group.legs
  | _ => fun _ => False

/-- What an operation is given and asked for. -/
def mandate (c : Session) (base : World) (op : Operation α) : Mandate where
  hands := op.hands
  asks := op.asks c base
  asksGroup := op.asksGroup c base

/-- The operation sends no transaction. -/
def reads : Operation α → Bool
  | accountBalance | globalState _ | appGlobalBytes _ _ | getAppLocalSchema _
  | localStateForAccount _ _ | isAccountOptedInToAsset _ _ | assetHolding _ _ | accountFunds _
  | microalgosAt _ | round | blockSeed _ | suggestedParams | confirmedTransaction _
  | findTransactionByNote _ | findTransactionByNoteAndSender _ _ | findTransactionByNotePrefix _
  | findTransactionByNotePrefixAndSender _ _ | findTransactionsByNotePrefix _
  | findTransactionsByNotePrefixAndSender _ _ | fetchTransactionsCached _ _ _ _ _
  | fetchOptedInAccountsCached _ _ _ _ _ | appCreator _ | assetClawback _ | compileTeal _
  | waitForConfirmation _ _ => true
  | _ => false

/-- An operation that sends no transaction broadcasts nothing. -/
theorem quiet_of_reads {c : Session} {base : World} {op : Operation α} (hreads : op.reads = true)
    {r : Request} (h : c.Authorizes (op.mandate c base) r) : r.broadcasts = false := by
  apply h.of_nothing
  all_goals
    intro _ hasked
    cases op <;> first | exact hasked | exact absurd hreads Bool.false_ne_true

end Operation

end BlockchainOps.Algo
