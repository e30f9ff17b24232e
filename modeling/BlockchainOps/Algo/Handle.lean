import BlockchainOps.Algo.DailyBudget
import BlockchainOps.Algo.Keys
import BlockchainOps.Algo.RateLimiter

/-!
# The handle of a client

`AlgoOps` is what a client is made with: an account, endpoints and limits. What the clones of a
handle share and change, such as the token bucket and the request counter, is not part of it.
-/

namespace BlockchainOps.Algo

open Wire

/-- The endpoints of algod and the indexer, and the limits on requests to them. -/
structure AlgoChainConfig where
  clientApiUrl : String
  clientApiPort : ℕ
  indexerApiUrl : String
  indexerApiPort : ℕ
  token : Option String
  tokenKey : Option String
  appId : Option ℕ
  assetId : Option ℕ
  rateLimit : Option RateLimitConfig
  dailyBudget : Option DailyBudgetConfig
deriving DecidableEq, Repr

/-- `Default`: the local network. -/
def AlgoChainConfig.default : AlgoChainConfig where
  clientApiUrl := "http://localhost"
  clientApiPort := 4001
  indexerApiUrl := "http://localhost"
  indexerApiPort := 8980
  token := some "aaaaaaaaaaaaaaaaaaaaaaaaaaaaaaaaaaaaaaaaaaaaaaaaaaaaaaaaaaaaaaaa"
  tokenKey := some "X-Algo-API-Token"
  appId := none
  assetId := none
  rateLimit := none
  dailyBudget := none

structure AlgoOps where
  passphrase : Option String
  address : Option String
  config : AlgoChainConfig
  timeout : Option Duration
deriving DecidableEq, Repr

namespace AlgoOps

/-- A malformed passphrase leaves the address unset. -/
def new (p : KeyPrims) (passphrase address : Option String) (config : Option AlgoChainConfig) :
    AlgoOps where
  passphrase
  address :=
    match address, passphrase with
    | none, some pass => (addressFromPassphrase p pass).toOption
    | address, _ => address
  config := config.getD .default
  timeout := none

/-- The public entry point. -/
def newForAlgorand := new

def publicKeyBytes (p : KeyPrims) (ops : AlgoOps) : Except Error (Field 32) :=
  match ops.address with
  | some addr => addressToByteKey p addr
  | none => .error (.text "This operation needs an address")

/-- The seed. -/
def privateKeyBytes (p : KeyPrims) (ops : AlgoOps) : Except Error (Field 32) :=
  match ops.passphrase with
  | some pass => seedFromPassphrase p pass
  | none => .error (.text "This operation needs account access")

/-- A plain signature over exactly the bytes given. -/
def signBytes (p : KeyPrims) (ops : AlgoOps) (message : Bytes) : Except Error (Field 64) := do
  let sk ← ops.privateKeyBytes p
  .ok (p.sign sk message)

end AlgoOps

end BlockchainOps.Algo
