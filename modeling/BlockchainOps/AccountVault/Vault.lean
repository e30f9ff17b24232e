import BlockchainOps.AccountVault.KeyFile

/-!
# Opening and sealing key files

A `Vault` opens and seals key files under one password. `Vault.seal` writes the sealed form
beside the original, reads it back, and removes the plaintext only when what was read is what was
written.

Every file operation takes the fault of its step. Whether a path exists is always answered
as it is.
-/

namespace BlockchainOps.AccountVault

open Effect Proc Storage

/-- What `Vault.open` read. -/
structure Opened where
  bytes : Bytes
  wasSealed : Bool
deriving DecidableEq, Repr

/-- A vault: the password it was given, or the one that has opened a file so far. -/
structure Vault where
  password : Option String
deriving DecidableEq, Repr

/-- A vault that does not know its password yet. -/
def Vault.new : Vault := ⟨none⟩

/-- A vault that already holds its password. -/
def Vault.withPassword (password : String) : Vault := ⟨some password⟩

def Vault.requiredPassword (v : Vault) : Except VaultError String :=
  match v.password with
  | some password => .ok password
  | none => .error .noPassword

/-! ## Opening -/

/-- A vault in use: the caller that is asked for a password keeps a state of its own. -/
structure Session (κ : Type) where
  vault : Vault
  caller : κ
  disk : VaultDisk

namespace Session

variable {κ ε α : Type}

def onDisk (x : Proc VaultDisk ε α) : Proc (Session κ) ε α := fun s =>
  ((x s.disk).1, { s with disk := (x s.disk).2 })

def onCaller (x : Proc κ ε α) : Proc (Session κ) ε α := fun s =>
  ((x s.caller).1, { s with caller := (x s.caller).2 })

end Session

section Opening

variable {κ : Type} (p : EnvelopePrims) (prompt : Proc κ VaultError String)

/-- Decrypt an envelope under the vault's password, or under one the caller is asked for. -/
def Vault.decrypt (path : Path) (envelope : Bytes) : Proc (Session κ) VaultError Opened := do
  let s ← get
  match s.vault.password.bind fun password => (decryptBytes p envelope password).toOption with
  | some bytes => pure ⟨bytes, true⟩
  | none => do
    let password ← Session.onCaller prompt
    let bytes ← ofExcept ((decryptBytes p envelope password).mapError fun _ => .doesNotOpen path)
    modify fun s => { s with vault := ⟨some password⟩ }
    pure ⟨bytes, true⟩

/-- Read a key file's plaintext, decrypting it if it is sealed. -/
def Vault.open (f : Fault) (file : KeyFile) : Proc (Session κ) VaultError Opened := do
  let s ← get
  if s.disk.pathExists file.plain then do
    let bytes ← Session.onDisk (mapErr (.io .read file.plain) (readFile f file.plain))
    -- a plaintext name may still hold an envelope
    if isEncryptedEnvelope p bytes then Vault.decrypt p prompt file.plain bytes
    else pure ⟨bytes, false⟩
  else if s.disk.pathExists file.sealedPath then do
    let bytes ← Session.onDisk (mapErr (.io .read file.sealedPath) (readFile f file.sealedPath))
    Vault.decrypt p prompt file.sealedPath bytes
  else raise (.noKeyFileInEitherForm file.plain file.sealedPath)

end Opening

/-! ## Sealing -/

/-- How the steps that create a file go. -/
structure WriteFaults where
  create : Fault
  write : WriteFault UInt8
  sync : Fault

/-- How the steps that create a sealed file and read it back go; `withdraw` is the removal of a
file that was not read back as it was written. -/
structure StoreFaults extends WriteFaults where
  reread : Fault
  withdraw : Fault

/-- How the steps of a seal go; `remove` is the removal of the plaintext. -/
structure SealFaults extends StoreFaults where
  read : Fault
  remove : Fault

/-- Write `bytes` to a new file that only its owner can read. -/
def writePrivate (f : WriteFaults) (path : Path) (bytes : Bytes) :
    Proc VaultDisk VaultError Unit := do
  mapErr (.io .create path) (createNew f.create path)
  mapErr (.io .write path) (writeAll f.write path bytes)
  mapErr (.io .flush path) (syncAll f.sync path)

/-- Write an envelope and read it back; a file that doesn't match is removed, as well as that
goes. -/
def writeChecked (f : StoreFaults) (sealedPath : Path) (envelope : Bytes) (mismatch : VaultError) :
    Proc VaultDisk VaultError Unit := do
  writePrivate f.toWriteFaults sealedPath envelope
  let written ← mapErr (.io .reread sealedPath) (readFile f.reread sealedPath)
  if written = envelope then pure ()
  else do
    let _ ← (attempt (removeFile f.withdraw sealedPath) :
      Proc VaultDisk VaultError (Except IoError Unit))
    raise mismatch

/-- Fail if the key file exists in either form. -/
def refuseExisting (file : KeyFile) : Proc VaultDisk VaultError Unit := do
  let d ← get
  if file.exists d then raise (.existsAlready file.plain) else pure ()

section Sealing

variable (p : EnvelopePrims) (fastKdf : Bool) (draw : Draw)

/-- An envelope of `bytes` that has been seen to open again. -/
def freshEnvelope (password : String) (bytes : Bytes) (mismatch : VaultError) :
    Except VaultError Bytes := do
  let envelope ← (encryptBytes p fastKdf draw bytes password).mapError .envelope
  let reopened ← (decryptBytes p envelope password).mapError .envelope
  if reopened = bytes then .ok envelope else .error mismatch

/-- What the sealed form of a plaintext file with content `bytes` holds: an envelope under a
plaintext name only needs its sealed name. -/
def sealedEnvelope (password : String) (plain : Path) (bytes : Bytes) : Except VaultError Bytes :=
  if isEncryptedEnvelope p bytes then
    match decryptBytes p bytes password with
    | .ok _ => .ok bytes
    | .error _ => .error (.doesNotOpen plain)
  else freshEnvelope p fastKdf draw password bytes (.noRoundTrip plain)

/-- Check that the vault's password opens the sealed file at `sealedPath`. -/
def Vault.checkOpens (f : Fault) (v : Vault) (sealedPath : Path) :
    Proc VaultDisk VaultError Unit := do
  let password ← ofExcept v.requiredPassword
  let envelope ← mapErr (.io .read sealedPath) (readFile f sealedPath)
  match decryptBytes p envelope password with
  | .ok _ => pure ()
  | .error _ => raise (.doesNotOpen sealedPath)

/-- Seal a key file under the vault's password and delete its plaintext; whether there was
anything to do. -/
def Vault.seal (f : SealFaults) (v : Vault) (file : KeyFile) : Proc VaultDisk VaultError Bool := do
  let password ← ofExcept v.requiredPassword
  let d ← get
  if d.pathExists file.plain then
    if d.pathExists file.sealedPath then raise (.bothExist file.plain file.sealedPath)
    else do
      let bytes ← mapErr (.io .read file.plain) (readFile f.read file.plain)
      let envelope ← ofExcept (sealedEnvelope p fastKdf draw password file.plain bytes)
      writeChecked f.toStoreFaults file.sealedPath envelope (.notReadBack file.sealedPath file.plain)
      mapErr (.io .remove file.plain) (removeFile f.remove file.plain)
      pure true
  else if d.pathExists file.sealedPath then pure false
  else raise (.noKeyFile file.plain)

/-- Write a new key file sealed under the vault's password; where it was written. -/
def Vault.sealNew (f : StoreFaults) (v : Vault) (file : KeyFile) (bytes : Bytes) :
    Proc VaultDisk VaultError Path := do
  let password ← ofExcept v.requiredPassword
  refuseExisting file
  let envelope ← ofExcept
    (freshEnvelope p fastKdf draw password bytes (.newNoRoundTrip file.plain))
  writeChecked f file.sealedPath envelope (.newNotReadBack file.sealedPath)
  pure file.sealedPath

end Sealing

/-- Write a new key file in the clear; where it was written. -/
def writeNewPlain (f : WriteFaults) (file : KeyFile) (bytes : Bytes) :
    Proc VaultDisk VaultError Path := do
  refuseExisting file
  writePrivate f file.plain bytes
  pure file.plain

end BlockchainOps.AccountVault
