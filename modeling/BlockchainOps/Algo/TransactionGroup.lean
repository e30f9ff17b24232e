import BlockchainOps.Algo.Applications

/-!
# Transaction groups

A builder collects the legs of an atomic group, and the options of a leg after it. A misuse is
recorded when it happens, the first one only, and reported by `signAndSend`, which then makes no
request.
-/

namespace BlockchainOps.Algo

open Effect

/-- One leg of a group. -/
inductive GroupLeg
  | payment (toAddress : String) (microAlgos : ℕ)
  | assetTransfer (assetId amount : ℕ) (toAddress : String)
  | appCall (appId : ℕ) (method : Option String) (args : List AppArg)
      (foreignAsset foreignApp : Option ℕ)
deriving DecidableEq, Repr

structure TransactionGroupBuilder where
  legs : List GroupLeg
  error : Option String
deriving DecidableEq, Repr

/-- `AlgoOps::transaction_group`. -/
def transactionGroup : TransactionGroupBuilder := ⟨[], none⟩

namespace TransactionGroupBuilder

/-- Record a misuse, if it is the first. -/
def setError (b : TransactionGroupBuilder) (msg : String) : TransactionGroupBuilder :=
  { b with error := b.error.or (some msg) }

def push (b : TransactionGroupBuilder) (leg : GroupLeg) : TransactionGroupBuilder :=
  { b with legs := b.legs ++ [leg] }

def payment (b : TransactionGroupBuilder) (toAddress : String) (microAlgos : ℕ) :
    TransactionGroupBuilder :=
  b.push (.payment toAddress microAlgos)

def assetTransfer (b : TransactionGroupBuilder) (assetId amount : ℕ) (toAddress : String) :
    TransactionGroupBuilder :=
  b.push (.assetTransfer assetId amount toAddress)

def callApp (b : TransactionGroupBuilder) (appId : ℕ) (method : Option String)
    (args : List AppArg) : TransactionGroupBuilder :=
  let b := if appId = 0 then b.setError "call_app() requires app_id > 0" else b
  b.push (.appCall appId method args none none)

def callAppRawArgs := callApp

/-- A leg whose arguments cannot be framed is added too, so that the options after it have a leg
to attach to. -/
def callAppArc4Args (b : TransactionGroupBuilder) (appId : ℕ) (method : Option String)
    (args : List AppArg) : TransactionGroupBuilder :=
  match arc4FrameArgs method args with
  | .ok framed => b.callApp appId method framed
  | .error e => (b.setError s!"call_app_arc4_args(): {e.display}").callApp appId method args

/-- Change the last leg, if it is a call. -/
def onLastCall (b : TransactionGroupBuilder) (misuse : String)
    (f : ℕ → Option String → List AppArg → Option ℕ → Option ℕ → GroupLeg) :
    TransactionGroupBuilder :=
  match b.legs.getLast? with
  | some (.appCall appId method args foreignAsset foreignApp) =>
    { b with legs := b.legs.dropLast ++ [f appId method args foreignAsset foreignApp] }
  | _ => b.setError misuse

def foreignAsset (b : TransactionGroupBuilder) (assetId : ℕ) : TransactionGroupBuilder :=
  b.onLastCall "foreign_asset() must follow a call_app() leg"
    fun appId method args _ foreignApp => .appCall appId method args (some assetId) foreignApp

def foreignApp (b : TransactionGroupBuilder) (foreignAppId : ℕ) : TransactionGroupBuilder :=
  b.onLastCall "foreign_app() must follow a call_app() leg"
    fun appId method args foreignAsset _ =>
      .appCall appId method args foreignAsset (some foreignAppId)

/-- Build one leg, all of which have one sender. -/
def buildLeg (sender : Address) (params : SuggestedParams) : GroupLeg → Client Transaction
  | .payment toAddress microAlgos => do
    let toAddr ← parseAddress toAddress
    build "failed to build payment transaction" sender (.pay toAddr microAlgos) params
  | .assetTransfer assetId amount toAddress => do
    let toAddr ← parseAddress toAddress
    build "failed to build asset transfer transaction" sender
      (.transferAsset assetId amount toAddr) params
  | .appCall appId method args foreignAsset foreignApp =>
    buildCallAppTxInner appId foreignAsset foreignApp.toList [] method args

/-- Build, group and sign every leg, then broadcast the group and wait for its confirmation. -/
def signAndSend (b : TransactionGroupBuilder) : Client String := do
  match b.error with
  | some err => bail err
  | none => pure ()
  if b.legs.isEmpty then bail "transaction group must contain at least one transaction"
  let seed ← privateKeyBytes
  let sender ← requireAddress
  let client ← algodClient
  let params ← paramsFor client
  let txns ← Confined.forEach (buildLeg sender params) b.legs
  let library := (← env).algonaut
  let group ← orBail "failed to assign group id" (library.assignGroup txns)
  let signed ← Confined.forEach
    (fun tx => orBail "failed to sign grouped transaction" (library.sign seed tx)) group
  let response ← context "failed to broadcast transaction group"
    (algodCall (client.sendTransactionsCall signed))
  waitForConfirmation response.txId 10
  pure response.txId

end TransactionGroupBuilder

end BlockchainOps.Algo
