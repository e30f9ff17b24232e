import BlockchainOps.Sidewinder.Discovery
import BlockchainOps.Sidewinder.NodeCalls

/-!
# The health probe

`sidewinder-health` probes a node over mutual TLS, in which it pins the identity it was given, at a
URL or at the endpoint that the identity has published on chain.
-/

namespace BlockchainOps.Sidewinder.Health

open Effect Proc Tls

/-! ## Arguments -/

def usage : String :=
  "sidewinder-health --node-identity <algo-address> " ++
  "(--url <https-base> | --app-id <id> --parent-chain <file>) [--path <path>] " ++
  "[--mnemonic-file <path>]\n  " ++
  "account mnemonic: --mnemonic-file or SIDEWINDER_ACCOUNT_MNEMONIC"

structure Args where
  nodeIdentity : String
  url : Option String
  appId : Option UInt64
  parentChain : Option String
  path : String
  mnemonicFile : Option String
deriving DecidableEq, Repr

/-- A flag that takes a value. -/
inductive Flag
  | nodeIdentity
  | url
  | appId
  | parentChain
  | path
  | mnemonicFile
deriving DecidableEq, Repr

def Flag.text : Flag → String
  | nodeIdentity => "--node-identity"
  | url => "--url"
  | appId => "--app-id"
  | parentChain => "--parent-chain"
  | path => "--path"
  | mnemonicFile => "--mnemonic-file"

def Flag.ofText (arg : String) : Option Flag :=
  [nodeIdentity, url, appId, parentChain, path, mnemonicFile].find? fun flag => flag.text = arg

/-- What the flags have set so far. -/
structure Found where
  nodeIdentity : Option String
  url : Option String
  appId : Option UInt64
  parentChain : Option String
  path : String
  mnemonicFile : Option String
deriving DecidableEq, Repr

def Found.start : Found where
  nodeIdentity := none
  url := none
  appId := none
  parentChain := none
  path := "/health"
  mnemonicFile := none

/-- Set what a flag sets; an earlier value is overwritten. -/
def Found.set (f : Found) (flag : Flag) (value : String) : Except String Found :=
  match flag with
  | .nodeIdentity => .ok { f with nodeIdentity := some value }
  | .url => .ok { f with url := some value }
  | .appId =>
    match parseU64 value with
    | some appId => .ok { f with appId := some appId }
    | none => .error s!"--app-id `{value}` not a u64"
  | .parentChain => .ok { f with parentChain := some value }
  | .path => .ok { f with path := value }
  | .mnemonicFile => .ok { f with mnemonicFile := some value }

/-- What comes of reading a command line; help is given at once. -/
inductive Parsed (α : Type)
  | ok (a : α)
  | help
  | refused (message : String)
deriving DecidableEq, Repr

def isHelp (arg : String) : Bool := arg = "-h" || arg = "--help"

/-- Read the flags in order. -/
def readFlags (f : Found) : List String → Parsed Found
  | [] => .ok f
  | [arg] =>
    if isHelp arg then .help
    else
      match Flag.ofText arg with
      | some flag => .refused s!"`{flag.text}` needs a value"
      | none => .refused s!"unknown argument `{arg}`\n{usage}"
  | arg :: value :: rest =>
    if isHelp arg then .help
    else
      match Flag.ofText arg with
      | some flag =>
        match f.set flag value with
        | .ok f => readFlags f rest
        | .error message => .refused message
      | none => .refused s!"unknown argument `{arg}`\n{usage}"

/-- A node must be named, and addressed by a URL or on chain. -/
def Found.finish (f : Found) : Except String Args :=
  match f.nodeIdentity with
  | none => .error s!"missing --node-identity\n{usage}"
  | some nodeIdentity =>
    if f.url.isNone && (f.appId.isNone || f.parentChain.isNone) then
      .error s!"address the node with either --url, or --app-id and --parent-chain\n{usage}"
    else
      .ok
        { nodeIdentity
          url := f.url
          appId := f.appId
          parentChain := f.parentChain
          path := f.path
          mnemonicFile := f.mnemonicFile }

def parseArgs (argv : List String) : Parsed Args :=
  match readFlags .start argv with
  | .ok f =>
    match f.finish with
    | .ok args => .ok args
    | .error message => .refused message
  | .help => .help
  | .refused message => .refused message

/-! ## The probe -/

/-- What is outside the probe. -/
structure Host (ν : Type) where
  env : Algo.Env
  certificates : CertificatePrims
  /-- The random key of the client certificate. -/
  draw : ℕ
  net : NodeEnv ν
  readToString : String → Except String String
  /-- `SIDEWINDER_ACCOUNT_MNEMONIC`, if it is set to a text. -/
  mnemonicVar : Option String
  /-- `serde_json::from_str` of a chain configuration. -/
  parseChainConfig : String → Except String Algo.AlgoChainConfig
  overflowChecks : Bool

variable {ν : Type}

/-- An error under a text. -/
def under (what : String) (e : Algo.Error) : Error := .text s!"{what}: {e.display}"

/-- The mnemonic of the client's account, from the file if there is one. -/
def Host.loadMnemonic (h : Host ν) (mnemonicFile : Option String) : Except Error String :=
  match mnemonicFile with
  | some file =>
    match h.readToString file with
    | .error e => .error (.text s!"reading mnemonic file `{file}`: {e}")
    | .ok text =>
      if (Text.trim text).isEmpty then .error (.text s!"mnemonic file `{file}` is empty")
      else .ok (Text.trim text)
  | none =>
    match h.mnemonicVar.filter fun value => !(Text.trim value).isEmpty with
    | some value => .ok (Text.trim value)
    | none =>
      .error (.text s!"no account: pass --mnemonic-file or set SIDEWINDER_ACCOUNT_MNEMONIC\n{usage}")

def Host.loadChainConfig (h : Host ν) (file : String) : Except Error Algo.AlgoChainConfig :=
  match h.readToString file with
  | .error e => .error (.text s!"reading parent-chain file `{file}`: {e}")
  | .ok text =>
    (h.parseChainConfig text).mapError fun e => .text s!"parsing parent-chain file `{file}`: {e}"

/-- What a new handle shares with its clones: its limits, and nothing counted or cached. -/
def opened (e : Algo.Env) (config : Algo.AlgoChainConfig) : Algo.World where
  rateLimiter := config.rateLimit.map fun limit => .new limit (e.instant 0)
  dailyBudget := config.dailyBudget.map fun budget => .new budget (e.unixSecs 1) 0
  requestsMade := 0
  appCreators := .new []
  log := []
  moment := 2

/-- The handle of an account on a chain. -/
def Host.session (h : Host ν) (mnemonic : String) (chain : Algo.AlgoChainConfig) : Algo.Session where
  env := h.env
  ops := .newForAlgorand h.env.keys (some mnemonic) none (some chain)

/-- The nodes of an application. What the resolve asks the indexer is no request to a node, and is
not in the log of those. -/
def Host.nodes (h : Host ν) (mnemonic : String) (chain : Algo.AlgoChainConfig) (appId : UInt64) :
    Outcome Algo.Error (List DiscoveredNode) :=
  ((resolveNodes (.bingle appId.toNat)
      (DiscoveryConfig.bingle_shifts appId.toNat h.overflowChecks)).run
    (h.session mnemonic chain) (opened h.env chain)).1

/-- `Option::expect`. -/
def expect {α : Type} : Option α → Proc (NetWorld ν) Error α
  | some a => pure a
  | none => halt .panic

/-- The first of the nodes with the identity. -/
def named (args : Args) (appId : UInt64) (nodes : List DiscoveredNode) :
    Except Error DiscoveredNode :=
  match nodes.find? fun node => node.identity = args.nodeIdentity with
  | some node => .ok node
  | none =>
    .error (.text (s!"node {args.nodeIdentity} has no published endpoint in app {appId} " ++
      "(not enrolled, or endpoint not advertised)"))

/-- The client for the node, at its URL or where it is found on chain. -/
def Host.buildClient (h : Host ν) (args : Args) (mnemonic : String) :
    Proc (NetWorld ν) Error NodeClient := do
  match args.url with
  | some url =>
    let algo := Algo.AlgoOps.newForAlgorand h.env.keys (some mnemonic) none none
    ofExcept ((NodeClient.connectPinned h.certificates h.draw h.env.keys algo url
      args.nodeIdentity).mapError (under "building the mutual-TLS client"))
  | none =>
    let appId ← expect args.appId
    let file ← expect args.parentChain
    let chain ← ofExcept (h.loadChainConfig file)
    let nodes ← mapErr (under "resolving node endpoints from the chain")
      (ofOutcome (h.nodes mnemonic chain appId))
    let node ← ofExcept (named args appId nodes)
    ofExcept ((NodeClient.connect h.certificates h.draw h.env.keys (h.session mnemonic chain).ops
      node).mapError (under "building the mutual-TLS client"))

/-- The exit code, and what was written to the standard output. -/
structure Exit where
  code : ℕ
  stdout : Bytes
deriving DecidableEq, Repr

/-- The exit code for a response. -/
def exitCode (status : ℕ) : ℕ := if 200 ≤ status ∧ status < 300 then 0 else 3

/-- A node that cannot be reached has an exit code of its own; everything else that fails is an
error. -/
def Host.run (h : Host ν) (argv : List String) : Proc (NetWorld ν) Error Exit := do
  match parseArgs argv with
  | .help => pure ⟨0, utf8 s!"{usage}\n"⟩
  | .refused message => raise (.text message)
  | .ok args =>
    let mnemonic ← ofExcept (h.loadMnemonic args.mnemonicFile)
    let client ← h.buildClient args mnemonic
    match ← (attempt (get ⟨h.net, client⟩ args.path) :
      Proc (NetWorld ν) Error (Except Error (ℕ × Bytes))) with
    | .ok (status, body) => pure ⟨exitCode status, body⟩
    | .error _ => pure ⟨2, []⟩

def Host.main (h : Host ν) (argv : List String) : Proc (NetWorld ν) Error Exit := do
  match ← (attempt (h.run argv) : Proc (NetWorld ν) Error (Except Error Exit)) with
  | .ok exit => pure exit
  | .error _ => pure ⟨1, []⟩

end BlockchainOps.Sidewinder.Health
