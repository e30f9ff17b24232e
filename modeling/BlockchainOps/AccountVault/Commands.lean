import BlockchainOps.AccountVault.Vault

/-!
# The `create` and `seal` commands

`seal` seals the key files of a directory tree under one password, and `create` adds a new one to
a directory. Both first check that the password opens what is sealed there already.

What comes from outside a command is its environment: the password typed, the draws, the new
account, and the fault of every step. What is printed is the result.
-/

namespace BlockchainOps.AccountVault

open Effect Proc Storage

/-- What a command meets. The account of a new key file and its search are settled outside, and
so are the confirmations that `read_new_password` asks for. -/
structure CommandEnv where
  scan : ScanFaults
  /-- `read_new_password`. -/
  password : Except VaultError String
  reference : Fault
  check : KeyFile → Fault
  fastKdf : Bool
  draw : KeyFile → Draw
  steps : KeyFile → SealFaults
  /-- `normalise_prefix` of the prefix asked for, if any. -/
  prefixCheck : Except VaultError Unit
  /-- The new account's key file, as JSON. -/
  account : Except VaultError Bytes

structure SealArgs where
  dir : Path
  recursive : Bool
  samePasswordAs : Option Path
deriving DecidableEq, Repr

structure CreateArgs where
  file : Path
  samePasswordAs : Option Path
  plain : Bool
deriving DecidableEq, Repr

variable (p : EnvelopePrims) (env : CommandEnv)

/-- The reference file, if one is named, opens under the vault's password. -/
def checkReference (v : Vault) (samePasswordAs : Option Path) : Proc VaultDisk VaultError Unit :=
  match samePasswordAs with
  | some reference => v.checkOpens p env.reference reference
  | none => pure ()

/-- Every key file of which only the sealed form is on disk opens under the vault's password. -/
def checkSealed (v : Vault) (files : List KeyFile) : Proc VaultDisk VaultError Unit := do
  let d ← get
  let _ ← forEach (fun file => v.checkOpens p (env.check file) file.sealedPath)
    (files.filter fun file => file.isSealed d)
  pure ()

/-- Seal the files in order; the sealed paths that are printed. -/
def sealFiles (v : Vault) (files : List KeyFile) : Proc VaultDisk VaultError (List Path) := do
  let printed ← forEach (fun file => do
    if ← v.seal p env.fastKdf (env.draw file) (env.steps file) file then pure [file.sealedPath]
    else pure []) files
  pure printed.flatten

/-- `blockchain-account-vault seal`. -/
def sealCommand (args : SealArgs) : Proc VaultDisk VaultError (List Path) := do
  let files ← discover env.scan args.dir args.recursive
  let d ← get
  let unsealed := files.filter fun file => !file.isSealed d
  if unsealed = [] then pure []
  else do
    let password ← ofExcept env.password
    let v := Vault.withPassword password
    checkReference p env v args.samePasswordAs
    checkSealed p env v files
    sealFiles p env v unsealed

/-- The vault of a `create`: none when the file is to be in the clear. -/
def createVault (args : CreateArgs) (dir : Path) : Proc VaultDisk VaultError (Option Vault) :=
  if args.plain then pure none
  else do
    let password ← ofExcept env.password
    let v := Vault.withPassword password
    checkReference p env v args.samePasswordAs
    let files ← discover env.scan dir false
    checkSealed p env v files
    pure (some v)

/-- `json`, the extension of an account's key file. -/
def accountExtension : Bytes := [0x6A, 0x73, 0x6F, 0x6E]

/-- `blockchain-account-vault create`. -/
def createCommand (args : CreateArgs) : Proc VaultDisk VaultError (List Path) := do
  let file := KeyFile.at args.file
  if extension (file.plain.getLast?.getD []) ≠ some accountExtension then
    raise (.notAccountName file.plain)
  else do
    let d ← get
    if file.exists d then raise (.accountExists file.plain)
    else if !isDirPath d file.plain.dropLast then raise (.notDirectory file.plain.dropLast)
    else do
      ofExcept env.prefixCheck
      -- the password is asked for before the search for an account
      let vault ← createVault p env args file.plain.dropLast
      let bytes ← ofExcept env.account
      match vault with
      | some v => do
        let written ← v.sealNew p env.fastKdf (env.draw file) (env.steps file).toStoreFaults file bytes
        pure [written]
      | none => do
        let written ← writeNewPlain (env.steps file).toWriteFaults file bytes
        pure [written]

/-- A command with its arguments. -/
inductive Command
  | seal (args : SealArgs)
  | create (args : CreateArgs)
deriving DecidableEq, Repr

namespace Command

def run : Command → Proc VaultDisk VaultError (List Path)
  | .seal args => sealCommand p env args
  | .create args => createCommand p env args

/-- The directory whose key files a command is to keep under one password, and whether the
directories beneath it belong to it. -/
def scanned : Command → Path × Bool
  | .seal args => (args.dir, args.recursive)
  | .create args => ((KeyFile.at args.file).plain.dropLast, false)

/-- The key files of the scanned tree. -/
def tree (c : Command) (d : VaultDisk) : Outcome VaultError (List KeyFile) :=
  (discover .ok c.scanned.1 c.scanned.2 d).1

/-- The sealed file the password must also open. -/
def reference : Command → Option Path
  | .seal args => args.samePasswordAs
  | .create args => args.samePasswordAs

end Command

end BlockchainOps.AccountVault
