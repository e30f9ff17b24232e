import BlockchainOps.Algo.Json
import BlockchainOps.Algo.Keys

/-!
# The Algorand library of the client

The types the client takes from its Algorand library: transactions, the requests to algod and
the indexer, and their replies. How transactions are built, signed and encoded is a parameter
(`Algonaut`), and so is what the nodes answer (`Algod`, `Indexer`). A reply that the client only
turns into JSON is kept as that JSON, or as the error of turning it.
-/

namespace BlockchainOps.Algo

open Wire

/-- An address, which is a public key. -/
structure Address where
  bytes : Field 32
deriving DecidableEq

/-- What `serde_json::to_value` makes of a reply. -/
abbrev Serialized := Except String Json

/-! ## Transactions -/

/-- The parameters algod suggests for the next transactions. -/
structure SuggestedParams where
  fee : ℕ
  minFee : ℕ
  lastRound : ℕ
  genesisHash : Field 32
  genesisId : String

/-- The addresses an asset configuration names; the builders leave each unset at first. -/
structure AssetAddresses where
  manager : Option Address
  reserve : Option Address
  freeze : Option Address
  clawback : Option Address
deriving DecidableEq

structure StateSchema where
  numberInts : ℕ
  numberByteslices : ℕ
deriving DecidableEq

/-- What a transaction does. -/
inductive TransactionKind
  | pay (receiver : Address) (amount : ℕ)
  | transferAsset (assetId amount : ℕ) (receiver : Address)
  | createAsset (total decimals : ℕ) (defaultFrozen : Bool) (addresses : AssetAddresses)
  | updateAsset (assetId : ℕ) (addresses : AssetAddresses)
  | createApplication (approval clear : Bytes) (globalSchema localSchema : StateSchema)
      (extraPages : Option ℕ) (foreignAssets : Option (List ℕ))
      (appArguments : Option (List Bytes))
  | updateApplication (appId : ℕ) (approval clear : Bytes) (foreignAssets : Option (List ℕ))
  | callApplication (appId : ℕ) (accounts : List Address) (appArguments : List Bytes)
      (foreignAssets foreignApps : Option (List ℕ))
  | optInApplication (appId : ℕ)
  | clearApplication (appId : ℕ)
  | closeApplication (appId : ℕ)
  | deleteApplication (appId : ℕ)
deriving DecidableEq

/-- A builder, ready to build: without a fee of its own the suggested one applies. -/
structure TransactionBuilder where
  sender : Address
  kind : TransactionKind
  fee : Option ℕ
  note : Bytes
deriving DecidableEq

structure Transaction where
  sender : Address
  kind : TransactionKind
  fee : ℕ
  note : Bytes
  group : Option Bytes
deriving DecidableEq

structure SignedTransaction where
  transaction : Transaction
  signature : Field 64
  transactionId : String
deriving DecidableEq

/-- The functions of the library that ask no node. -/
structure Algonaut where
  /-- `Address::from_str`. -/
  parseAddress : String → Except String Address
  /-- The `Display` form of an address. -/
  addressText : Address → String
  build : TransactionBuilder → SuggestedParams → Except String Transaction
  estimateBasicSigSize : Transaction → Except String ℕ
  /-- `Account::from_seed` and `sign`. -/
  sign : Field 32 → Transaction → Except String SignedTransaction
  toMsgPack : SignedTransaction → Except String Bytes
  /-- `TransactionGroup::try_from` and `into_transactions`. -/
  assignGroup : List Transaction → Except String (List Transaction)
  /-- `CompiledTeal::bytes_to_sign`. -/
  bytesToSign : Bytes → Bytes

/-! ## Requests -/

/-- What the client fills in of a transaction search. -/
structure TransactionQuery where
  next : Option String
  notePrefix : Option String
  minRound : Option ℕ
  address : Option Address
  addressRole : Option String
  applicationId : Option ℕ
deriving DecidableEq

/-- What the client fills in of an account search. -/
structure AccountQuery where
  next : Option String
  exclude : Option (List String)
  applicationId : Option ℕ
deriving DecidableEq

/-- A request to algod or the indexer. -/
inductive Request
  | account (address : Address)
  | app (appId : ℕ)
  | asset (assetId : ℕ)
  | status
  | statusAfterBlock (round : ℕ)
  | suggestedParams
  | sendRaw (signed : Bytes)
  | sendTransactions (signed : List SignedTransaction)
  | pendingTransaction (txid : String)
  | tealCompile (source : Bytes)
  | searchForTransactions (query : TransactionQuery)
  | searchForAccounts (query : AccountQuery)
  | lookupAccountById (address : Address) (exclude : Option (List String))
  /-- A plain GET, with the name and value of the token header. -/
  | get (url tokenHeader token : String)
deriving DecidableEq

/-! ## Replies -/

/-- How a call failed: with an HTTP error status, with a response that could not be decoded, or
with no response. -/
inductive Failure
  | http (status : ℕ)
  | undecoded
  | transport
deriving DecidableEq, Repr

/-- `algonaut::Error`, with its rendered text. -/
structure NodeError where
  failure : Failure
  text : String
deriving DecidableEq, Repr

/-- `AlgoOps::http_status`. -/
def NodeError.httpStatus (e : NodeError) : Option ℕ :=
  match e.failure with
  | .http status => some status
  | .undecoded | .transport => none

/-- What became of a request that was sent. -/
inductive Reply
  | ok
  | failed (e : NodeError)
  | timedOut (after : Duration)
  | unsettled
  | panicked
deriving DecidableEq, Repr

/-- How a future settles: with a value after some time, or never. -/
inductive Settled (α : Type)
  | done (after : Duration) (value : α)
  | never
  | panics

/-- A future that makes one request. How it settles depends on the moment it is polled at. -/
structure Fut (α : Type) where
  request : Request
  settle : ℕ → Settled α
  /-- What the value tells about the reply. -/
  reply : α → Reply

/-- The reply behind the result of a call. -/
def replyOf {α : Type} : Except NodeError α → Reply
  | .ok _ => .ok
  | .error e => .failed e

/-- A call of the library. -/
abbrev NodeCall (α : Type) := Fut (Except NodeError α)

/-- The call that makes a request. -/
def NodeCall.mk {α : Type} (request : Request) (settle : ℕ → Settled (Except NodeError α)) :
    NodeCall α :=
  { request, settle, reply := replyOf }

/-! ## Nodes -/

/-- An account as algod serves it. -/
structure AccountInfo where
  amount : ℕ
  minBalance : ℕ
  value : Serialized

structure NodeStatus where
  lastRound : ℕ

/-- A transaction that algod knows; `txn` is the inner transaction. -/
structure PendingTransaction where
  confirmedRound : Option ℕ
  poolError : String
  assetIndex : Option ℕ
  txn : Option Serialized
  value : Serialized

structure TransactionResponse where
  txId : String

structure ApplicationTransaction where
  accounts : Option (List String)

/-- A transaction as the indexer serves it. -/
structure IndexerTransaction where
  confirmedRound : Option ℕ
  sender : String
  note : Option Bytes
  applicationTransaction : Option ApplicationTransaction
  innerTxns : Option (List IndexerTransaction)

/-- A page of a search. -/
structure SearchResponse (α : Type) where
  items : List α
  nextToken : Option String
  currentRound : ℕ

/-- An account as the indexer serves it. -/
structure IndexerAccount where
  address : String
  value : Serialized

/-- How algod answers each request at each moment. -/
structure Algod where
  account : Address → ℕ → Settled (Except NodeError AccountInfo)
  app : ℕ → ℕ → Settled (Except NodeError Serialized)
  asset : ℕ → ℕ → Settled (Except NodeError Serialized)
  status : ℕ → Settled (Except NodeError NodeStatus)
  statusAfterBlock : ℕ → ℕ → Settled (Except NodeError Unit)
  suggestedParams : ℕ → Settled (Except NodeError SuggestedParams)
  sendRaw : Bytes → ℕ → Settled (Except NodeError TransactionResponse)
  sendTransactions : List SignedTransaction → ℕ → Settled (Except NodeError TransactionResponse)
  pendingTransaction : String → ℕ → Settled (Except NodeError PendingTransaction)
  tealCompile : Bytes → ℕ → Settled (Except NodeError Bytes)

/-- How the indexer answers each request at each moment. -/
structure Indexer where
  searchForTransactions :
    TransactionQuery → ℕ → Settled (Except NodeError (SearchResponse IndexerTransaction))
  searchForAccounts :
    AccountQuery → ℕ → Settled (Except NodeError (SearchResponse Serialized))
  lookupAccountById :
    Address → Option (List String) → ℕ → Settled (Except NodeError IndexerAccount)

namespace Algod

variable (client : Algod)

def accountCall (address : Address) : NodeCall AccountInfo :=
  .mk (.account address) (client.account address)

def appCall (appId : ℕ) : NodeCall Serialized := .mk (.app appId) (client.app appId)

def assetCall (assetId : ℕ) : NodeCall Serialized := .mk (.asset assetId) (client.asset assetId)

def statusCall : NodeCall NodeStatus := .mk .status client.status

def statusAfterBlockCall (round : ℕ) : NodeCall Unit :=
  .mk (.statusAfterBlock round) (client.statusAfterBlock round)

def suggestedParamsCall : NodeCall SuggestedParams := .mk .suggestedParams client.suggestedParams

def sendRawCall (signed : Bytes) : NodeCall TransactionResponse :=
  .mk (.sendRaw signed) (client.sendRaw signed)

def sendTransactionsCall (signed : List SignedTransaction) : NodeCall TransactionResponse :=
  .mk (.sendTransactions signed) (client.sendTransactions signed)

def pendingTransactionCall (txid : String) : NodeCall PendingTransaction :=
  .mk (.pendingTransaction txid) (client.pendingTransaction txid)

def tealCompileCall (source : Bytes) : NodeCall Bytes :=
  .mk (.tealCompile source) (client.tealCompile source)

end Algod

namespace Indexer

variable (client : Indexer)

def searchForTransactionsCall (query : TransactionQuery) :
    NodeCall (SearchResponse IndexerTransaction) :=
  .mk (.searchForTransactions query) (client.searchForTransactions query)

def searchForAccountsCall (query : AccountQuery) : NodeCall (SearchResponse Serialized) :=
  .mk (.searchForAccounts query) (client.searchForAccounts query)

def lookupAccountByIdCall (address : Address) (exclude : Option (List String)) :
    NodeCall IndexerAccount :=
  .mk (.lookupAccountById address exclude) (client.lookupAccountById address exclude)

end Indexer

end BlockchainOps.Algo
