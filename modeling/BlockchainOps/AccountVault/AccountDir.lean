import BlockchainOps.AccountVault.Names
import BlockchainOps.AccountVault.Vault

/-!
# Account files by name

An `AccountDir` reads the account files of one directory, each stored as `NAME.json` or sealed as
`NAME.json.enc`, and remembers the password that opened one.
-/

namespace BlockchainOps.AccountVault

open Effect Proc Storage

/-- The errors of an account directory. -/
inductive AccountError
  | readDirectory (dir : Path) (cause : IoError)
  | entry (cause : IoError)
  | read (path : Path) (cause : IoError)
  | noAccount (name : String) (dir : Path)
  | doesNotDecrypt (name : String)
  | prompt (message : String)
deriving DecidableEq, Repr

/-- The `Display` form; `debug` is the `{:?}` form of a path. -/
def AccountError.display (debug : Path → String) : AccountError → String
  | readDirectory dir _ => s!"failed to read accounts directory {debug dir}"
  | entry cause => cause.display
  | read path _ => s!"failed to read {debug path}"
  | noAccount name dir =>
    s!"no account file for '{name}' in {debug dir} (looked for {name}.json and {name}.json.enc)"
  | doesNotDecrypt name => s!"password did not decrypt encrypted account file for '{name}'"
  | prompt message => message

/-- A directory of account files, with a cached password for the encrypted ones. -/
structure AccountDir where
  dir : Path
  cachedPassword : Option String
deriving DecidableEq, Repr

namespace AccountDir

/-- A reader for `dir`. -/
def new (dir : Path) : AccountDir := ⟨dir, none⟩

/-- Seed the cached password. -/
def withCachedPassword (a : AccountDir) (password : Option String) : AccountDir :=
  { a with cachedPassword := password }

def plaintextPath (a : AccountDir) (name : String) : Path := join a.dir (utf8 (name ++ ".json"))

def encPath (a : AccountDir) (name : String) : Path := join a.dir (utf8 (name ++ ".json.enc"))

/-- Whether either file exists for `name`. -/
def «exists» (a : AccountDir) (name : String) (d : VaultDisk) : Bool :=
  d.pathExists (a.plaintextPath name) || d.pathExists (a.encPath name)

/-- Whether the account is stored only as an encrypted envelope. -/
def isEncrypted (a : AccountDir) (name : String) (d : VaultDisk) : Bool :=
  !d.pathExists (a.plaintextPath name) && d.pathExists (a.encPath name)

/-- The account name in the name of a file. -/
def accountName (fileName : String) : Option String :=
  match fileName.toList.dropSuffix? ".json.enc".toList with
  | some stem => some (String.ofList stem)
  | none => (fileName.toList.dropSuffix? ".json".toList).map String.ofList

/-- The account names in the directory, sorted and without repetition. -/
def discoverNames (faults : ScanFaults) (a : AccountDir) :
    Proc VaultDisk AccountError (List String) := do
  let entries ← mapErr (.readDirectory a.dir) (readDir (faults.readDir a.dir) a.dir)
  let found ← forEach (fun path => do
    mapErr .entry (ioStep (faults.entry path) (pure ()))
    pure (accountName (toStringLossy (path.getLast?.getD [])))) entries
  pure (found.reduceOption.foldl
    (fun names name => if name ∈ names then names else names.orderedInsert (· ≤ ·) name) [])

end AccountDir

/-- An account directory in use: the caller that is asked for a password keeps a state of its
own. -/
structure AccountSession (κ : Type) where
  accounts : AccountDir
  caller : κ
  disk : VaultDisk

namespace AccountSession

variable {κ ε α : Type}

def onDisk (x : Proc VaultDisk ε α) : Proc (AccountSession κ) ε α := fun s =>
  ((x s.disk).1, { s with disk := (x s.disk).2 })

def onCaller (x : Proc κ ε α) : Proc (AccountSession κ) ε α := fun s =>
  ((x s.caller).1, { s with caller := (x s.caller).2 })

end AccountSession

namespace AccountDir

variable {κ : Type} (p : EnvelopePrims) (prompt : Proc κ AccountError String)

/-- Decrypt an envelope under the cached password, or under one the caller is asked for. -/
def decrypt (name : String) (envelope : Bytes) :
    Proc (AccountSession κ) AccountError Bytes := do
  let s ← get
  match s.accounts.cachedPassword.bind fun pw => (decryptBytes p envelope pw).toOption with
  | some plaintext => pure plaintext
  | none => do
    let pw ← AccountSession.onCaller prompt
    let plaintext ← ofExcept ((decryptBytes p envelope pw).mapError fun _ => .doesNotDecrypt name)
    modify fun s => { s with accounts := { s.accounts with cachedPassword := some pw } }
    pure plaintext

/-- Read the account file for `name`. -/
def readBytes (f : Fault) (name : String) : Proc (AccountSession κ) AccountError Bytes := do
  let s ← get
  let plaintext := s.accounts.plaintextPath name
  let enc := s.accounts.encPath name
  if s.disk.pathExists plaintext then do
    let bytes ← AccountSession.onDisk (mapErr (.read plaintext) (readFile f plaintext))
    if isEncryptedEnvelope p bytes then decrypt p prompt name bytes
    else pure bytes
  else if s.disk.pathExists enc then do
    let bytes ← AccountSession.onDisk (mapErr (.read enc) (readFile f enc))
    decrypt p prompt name bytes
  else raise (.noAccount name s.accounts.dir)

end AccountDir

end BlockchainOps.AccountVault
