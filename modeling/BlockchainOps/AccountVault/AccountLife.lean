import BlockchainOps.AccountVault.MnemonicTheorems
import BlockchainOps.AccountVault.VanityTheorems
import BlockchainOps.AccountVault.VaultRuns

/-!
# The life of an account

An account is derived from a seed, and `create` writes its address and the mnemonic of the seed to a
new key file. From then on there are two ways back to the seed: `open` prints the mnemonic, and a
backup page carries the seed itself, encrypted where the key file is.

`createdAccount_recovered` says that both lead back to the account, after whatever has happened to
the vault in between.
-/

namespace BlockchainOps.AccountVault

open Effect Proc Storage Text

/-! ## Key files of accounts -/

/-- `{"address", "passphrase"}`. -/
def Account.json (account : Account) : Json :=
  .obj [("address", .str account.address), ("passphrase", .str account.passphrase)]

/-- The account key file's contents. -/
def Account.toKeyFileJson (p : EnvelopePrims) (account : Account) : Except VaultError Bytes := do
  let bytes ← (p.toVecPretty account.json).mapError .account
  .ok (bytes ++ [0x0A])

/-- A new account from the seed that was drawn. -/
def generateAccount (q : AccountPrims) (seed : Seed) : Account := Account.fromSeed q seed

/-- An account that `create` may make: any, or one that a search for the prefix found. -/
inductive CreatedAccount (q : AccountPrims) (threads : ℕ) : Option String → Account → Prop
  | generated (seed : Seed) : CreatedAccount q threads none (generateAccount q seed)
  | found {pre : String} {found : VanityAccount}
      (h : FindVanityAccount q pre threads (.ok found)) :
      CreatedAccount q threads (some pre) found.account

inductive FieldError
  | notJson
  | noField (field : String)
deriving DecidableEq, Repr

/-- The `Display` form. -/
def FieldError.display : FieldError → String
  | notJson => "the key file is not JSON"
  | noField field => s!"the key file has no string field '{field}'"

/-- Read one string field of a JSON key file. -/
def jsonField (p : EnvelopePrims) (bytes : Bytes) (field : String) : Except FieldError String :=
  match p.fromSlice bytes with
  | .error _ => .error .notJson
  | .ok json =>
    match (json.get field).bind Json.asStr with
    | some value => .ok value
    | none => .error (.noField field)

structure OpenArgs where
  file : Path
  field : Option String
deriving DecidableEq, Repr

inductive OpenError
  | vault (e : VaultError)
  | field (e : FieldError)
deriving DecidableEq, Repr

/-- `blockchain-account-vault open`; what is written to the standard output. -/
def openCommand {κ : Type} (p : EnvelopePrims) (prompt : Proc κ VaultError String) (f : Fault)
    (args : OpenArgs) : Proc (Session κ) OpenError Bytes := do
  modify fun s => { s with vault := .new }
  let opened ← mapErr .vault (Vault.open p prompt f (KeyFile.at args.file))
  match args.field with
  | some field => do
    let value ← ofExcept ((jsonField p opened.bytes field).mapError .field)
    pure (utf8 (value ++ "\n"))
  | none => pure opened.bytes

/-! ## Reading a key file -/

/-- What the way back asks of the other packages: JSON is read as it was written, with a line end
after it; so is base64; and a cipher decrypts what it encrypted. -/
structure KeyFileLaws (p : EnvelopePrims) : Prop where
  json : ∀ (account : Account) bytes, p.toVecPretty account.json = .ok bytes →
    ∃ json, p.fromSlice (bytes ++ [0x0A]) = .ok json ∧
      ∀ field, json.get field = account.json.get field
  base64 : ∀ bytes, p.b64Decode (p.b64Encode bytes) = .ok bytes
  aes : AesRoundTrip p

section KeyFiles

variable {p : EnvelopePrims} {q : AccountPrims} {account : Account} {bytes : Bytes}

theorem fromSlice_toKeyFileJson (hlaws : KeyFileLaws p) (h : account.toKeyFileJson p = .ok bytes) :
    ∃ json, p.fromSlice bytes = .ok json ∧ ∀ field, json.get field = account.json.get field := by
  unfold Account.toKeyFileJson at h
  rcases hwritten : p.toVecPretty account.json with e | written
  · simp [hwritten, bind, Except.bind] at h
  · simp only [hwritten, Fallible.mapError_ok, bind, Except.bind] at h
    rw [← Except.ok.inj h]
    exact hlaws.json account written hwritten

theorem jsonField_toKeyFileJson (hlaws : KeyFileLaws p) (h : account.toKeyFileJson p = .ok bytes)
    {field value : String} (hvalue : account.json.get field = some (.str value)) :
    jsonField p bytes field = .ok value := by
  obtain ⟨json, hread, hfields⟩ := fromSlice_toKeyFileJson hlaws h
  unfold jsonField
  rw [hread]
  simp only [hfields, hvalue]
  rfl

theorem accountFields_toKeyFileJson (hlaws : KeyFileLaws p)
    (h : account.toKeyFileJson p = .ok bytes) :
    accountFields p bytes = some (account.address, account.passphrase) := by
  obtain ⟨json, hread, hfields⟩ := fromSlice_toKeyFileJson hlaws h
  have haddress := hfields "address"
  have hpassphrase := hfields "passphrase"
  unfold accountFields
  rw [hread]
  show (do
    let address ← (← json.get "address").asStr
    let passphrase ← (← json.get "passphrase").asStr
    pure (address, passphrase)) = _
  rw [haddress, hpassphrase]
  rfl

/-- The account comes from a seed, which its passphrase encodes. -/
theorem CreatedAccount.seed {threads : ℕ} {pre : Option String}
    (h : CreatedAccount q threads pre account) : ∃ seed, account = Account.fromSeed q seed := by
  cases h with
  | generated seed => exact ⟨seed, rfl⟩
  | @found input found h =>
    -- a search returns an account only for a prefix that it could normalise
    have hnormal : ∃ normal, normalisePrefix input = .ok normal := by
      generalize hout : (Outcome.ok found : Outcome String VanityAccount) = out at h
      cases h with
      | refused _ => exact absurd hout (by simp)
      | panicked _ _ _ _ => exact absurd hout (by simp)
      | finished hpre _ _ => exact ⟨_, hpre⟩
    obtain ⟨normal, hnormal⟩ := hnormal
    obtain ⟨seed, hseed, -⟩ := seed_of_findVanityAccount hnormal h
    exact ⟨seed, hseed⟩

theorem mnemonicToBytes_passphrase (q : AccountPrims) (seed : Seed) :
    mnemonicToBytes q.wordList (fun b => (q.sha512_256 b).1) (Account.fromSeed q seed).passphrase
      accountKeyLen = .ok seed.1 := by
  have hdecodes : mnemonicToBytes q.wordList (fun b => (q.sha512_256 b).1)
      (Account.fromSeed q seed).passphrase seed.1.length = .ok seed.1 :=
    mnemonicToBytes_bytesToMnemonic seed.1
  rwa [seed.2] at hdecodes

/-- The page of an account's key file is the account's, and carries its seed. -/
theorem backupPage_account (hlaws : KeyFileLaws p) {seed : Seed}
    (h : (Account.fromSeed q seed).toKeyFileJson p = .ok bytes) {fastKdf : Bool} {draw : Draw}
    {name : String} {password : Option String} {page : BackupPage}
    (hpage : backupPage p q.wordList (fun b => (q.sha512_256 b).1) fastKdf draw name bytes password
      = .ok page) :
    page.address = some (Account.fromSeed q seed).address ∧ page.encrypted = password.isSome ∧
      ∃ printed, p.b64Decode page.qrPayload = .ok printed ∧
        mnemonicToBytes q.wordList (fun b => (q.sha512_256 b).1) page.mnemonic page.secretLen
          = .ok printed ∧
        Restores p printed seed.1 password := by
  have hsecret : pageSecret p q.wordList (fun b => (q.sha512_256 b).1) name bytes
      = .ok (some (Account.fromSeed q seed).address, seed.1) := by
    unfold pageSecret
    rw [accountFields_toKeyFileJson hlaws h]
    simp only [mnemonicToBytes_trim, mnemonicToBytes_passphrase]
  unfold backupPage at hpage
  rw [hsecret] at hpage
  rcases hprinted : printedSecret p fastKdf draw seed.1 password with e | printed
  · simp [hprinted, bind, Except.bind] at hpage
  simp only [hprinted, bind, Except.bind] at hpage
  rw [← Except.ok.inj hpage]
  exact ⟨rfl, rfl, printed, hlaws.base64 printed, mnemonicToBytes_bytesToMnemonic printed,
    (printedSecret_eq_ok hlaws.aes hprinted).1⟩

end KeyFiles

/-! ## The way back -/

/-- What `password` gets back of an account from the key file at `path`. -/
structure Recovered (p : EnvelopePrims) (q : AccountPrims) (password : String) (path : Path)
    (d : VaultDisk) (account : Account) : Prop where
  /-- `open` prints the fields of the account. -/
  fields : ∀ field value, account.json.get field = some (.str value) → ∀ (κ : Type) (v : Vault)
    (caller : κ), (openCommand p (pure password) .none ⟨path, some field⟩ ⟨v, caller, d⟩).1
      = .ok (utf8 (value ++ "\n"))
  /-- The passphrase encodes a seed of the account. -/
  passphrase : ∃ seed, Account.fromSeed q seed = account ∧
    mnemonicToBytes q.wordList (fun b => (q.sha512_256 b).1) account.passphrase accountKeyLen
      = .ok seed.1
  /-- A backup page has the account's address, and its two codes carry a seed of the account, which
  is encrypted under the password, or in the clear. -/
  page : ∀ (κ : Type) (env : PrintEnv) (root : Path) (v : Vault) (caller : κ) page,
    env.wordList = q.wordList → (env.sha512_256 = fun b => (q.sha512_256 b).1) →
    env.read (KeyFile.at path) = .none → v = .withPassword password ∨ v = .new →
    (printPage p env (pure password) root (KeyFile.at path) ⟨v, caller, d⟩).1 = .ok page →
    page.address = some account.address ∧ ∃ printed seed, Account.fromSeed q seed = account ∧
      p.b64Decode page.qrPayload = .ok printed ∧
      mnemonicToBytes q.wordList (fun b => (q.sha512_256 b).1) page.mnemonic page.secretLen
        = .ok printed ∧
      Restores p printed seed.1 (if page.encrypted then some password else none)

section Recovery

variable {p : EnvelopePrims} {q : AccountPrims} {account : Account} {bytes : Bytes}
  {password : String} {path : Path} {d : VaultDisk}

/-- An account is recovered from what is stored of its key file. -/
theorem recovered_of_stored (hlaws : KeyFileLaws p) {seed : Seed}
    (hbytes : (Account.fromSeed q seed).toKeyFileJson p = .ok bytes)
    (hstored : StoredAs p password (KeyFile.at path) d bytes) :
    Recovered p q password path d (Account.fromSeed q seed) where
  fields field value hvalue κ v caller := by
    obtain ⟨wasSealed, hrun⟩ := vaultOpen_of_stored (pure password) .new caller hstored
      (Or.inr ⟨rfl, rfl⟩)
    have hopened : mapErr OpenError.vault (Vault.open p (pure password) .none (KeyFile.at path))
        ⟨.new, caller, d⟩ = (.ok ⟨bytes, wasSealed⟩, _) := mapErr_ok_iff.mpr hrun
    unfold openCommand
    rw [bind_of_ok (modify_apply _ _), bind_of_ok hopened]
    simp only [jsonField_toKeyFileJson hlaws hbytes hvalue]
    rfl
  passphrase := ⟨seed, rfl, mnemonicToBytes_passphrase q seed⟩
  page κ env root v caller page hwords hdigest hread hv hpage := by
    obtain ⟨wasSealed, hrun⟩ := vaultOpen_of_stored (pure password) v caller hstored
      (hv.imp id fun hnew => ⟨hnew, rfl⟩)
    have hopened : mapErr PrintError.vault (Vault.open p (pure password)
        (env.read (KeyFile.at path)) (KeyFile.at path)) ⟨v, caller, d⟩
          = (.ok ⟨bytes, wasSealed⟩,
            ⟨if wasSealed then .withPassword password else v, caller, d⟩) := by
      rw [hread]
      exact mapErr_ok_iff.mpr hrun
    -- the page is made of what was opened, under the password where the file was sealed
    have hmade : backupPage p q.wordList (fun b => (q.sha512_256 b).1) env.fastKdf
        (env.draw (KeyFile.at path)) ((KeyFile.at path).nameUnder root) bytes
        (if wasSealed then some password else none) = .ok page := by
      unfold printPage at hpage
      simp only at hpage
      rw [bind_of_ok hopened, bind_of_ok (get_apply _), hwords, hdigest] at hpage
      cases wasSealed <;>
        exact Fallible.mapError_eq_ok.mp (ofExcept_ok_iff.mp (Prod.ext hpage (Eq.refl _))).1
    obtain ⟨haddress, hencrypted, printed, hqr, hdecodes, hrestores⟩ :=
      backupPage_account hlaws hbytes hmade
    refine ⟨haddress, printed, seed, rfl, hqr, hdecodes, ?_⟩
    rw [hencrypted]
    cases wasSealed <;> exact hrestores

/-- An account is recovered. Once `create` has reported that it has sealed a new account's key file
in a vault with any history, and whatever happens to the vault after that, one of the passwords
that were typed gets back the account: its address and passphrase from `open`, the seed that the
passphrase encodes, and the seed from a backup page. -/
theorem createdAccount_recovered (hlaws : KeyFileLaws p) {passwords : Set String}
    {nodes : List (Path × Node UInt8)} {d₁ d₂ d₃ : VaultDisk} {env : CommandEnv}
    {args : CreateArgs} {threads : ℕ} {pre : Option String} {printed : List Path}
    (hbefore : VaultRun p passwords (Disk.mount nodes) d₁)
    (haccount : CreatedAccount q threads pre account)
    (hbytes : env.account = account.toKeyFileJson p)
    (htyped : ∀ password, env.password = .ok password → password ∈ passwords)
    (hsealed : args.plain = false) (hnamed : (KeyFile.at args.file).Named)
    (hcreate : createCommand p env args d₁ = (.ok printed, d₂))
    (hafter : VaultRun p passwords d₂ d₃) :
    ∃ password ∈ passwords, Recovered p q password args.file d₃ account := by
  obtain ⟨seed, rfl⟩ := haccount.seed
  -- the key is safe when `create` returns, and every later event keeps it
  obtain ⟨bytes, hmade, hheld⟩ :=
    (createCommand_held (run_covered hnamed hbefore) htyped hsealed).of_ok rfl hcreate
  obtain ⟨password, htyped', hstored⟩ := (run_held hnamed hafter hheld).storedAs
  exact ⟨password, htyped', recovered_of_stored hlaws (hbytes.symm.trans hmade) hstored⟩

end Recovery

namespace OneAccount

/-- The account of the seed of zeros. -/
def account : Account := generateAccount sampleAccountPrims (Wire.Field.replicate 32 0)

/-- Small stand-ins for the other packages, where one byte stands for the account's JSON. -/
def prims : EnvelopePrims :=
  { samplePrims with
    fromSlice := fun bytes =>
      if bytes = [0x41, 0x0A] then .ok account.json else samplePrims.fromSlice bytes
    toVecPretty := fun json =>
      match (json.get "address").bind Json.asStr, (json.get "passphrase").bind Json.asStr with
      | some address, some passphrase =>
        if (⟨address, passphrase⟩ : Account) = account then .ok [0x41] else .error "unknown account"
      | _, _ => samplePrims.toVecPretty json }

theorem toVecPretty_account (other : Account) :
    prims.toVecPretty other.json
      = if other = account then .ok [0x41] else .error "unknown account" := rfl

theorem fromSlice_account : prims.fromSlice [0x41, 0x0A] = .ok account.json := by
  show (if ([0x41, 0x0A] : Bytes) = [0x41, 0x0A] then .ok account.json
    else samplePrims.fromSlice [0x41, 0x0A]) = _
  rw [if_pos rfl]

theorem keyFileLaws : KeyFileLaws prims where
  json other bytes h := by
    rw [toVecPretty_account] at h
    split_ifs at h with hsame
    rw [← Except.ok.inj h, hsame]
    exact ⟨account.json, fromSlice_account, fun _ => rfl⟩
  base64 bytes := congrArg Except.ok (sampleBytes_sampleText bytes)
  aes := aesRoundTrip_sample

def env : CommandEnv := { sampleEnv "pw" .ok with account := account.toKeyFileJson prims }

theorem env_account : env.account = account.toKeyFileJson prims := by
  unfold env
  rfl

/-- `create a.json` -/
def args : CreateArgs := ⟨[[0x61, 0x2E, 0x6A, 0x73, 0x6F, 0x6E]], none, false⟩

def envelope : Bytes := 0x7B :: ((sampleKey (utf8 "pw")).1.take 16 ++ [0x41, 0x0A])

def created : List (Path × Node UInt8) := [((KeyFile.at args.file).sealedPath, .file envelope)]

theorem keyFile : account.toKeyFileJson prims = .ok [0x41, 0x0A] := by
  unfold Account.toKeyFileJson
  rw [toVecPretty_account, if_pos rfl]
  rfl

theorem create_run :
    createCommand prims env args (Disk.mount [])
      = (.ok [(KeyFile.at args.file).sealedPath], Disk.mount created) := by
  have henv : env = { sampleEnv "pw" .ok with account := .ok [0x41, 0x0A] } := by
    unfold env
    rw [keyFile]
  rw [henv]
  decide

/-- An account is created under "pw", and power is lost: "pw" gets the account back. -/
theorem createdAccount_recovered_powerLoss :
    ∃ password ∈ ({"pw"} : Set String),
      Recovered prims sampleAccountPrims password args.file (Disk.mount created) account := by
  have hnamed : (KeyFile.at args.file).Named := ⟨by decide, utf8 "json", by decide, by decide⟩
  have himage : (Disk.mount created).CrashImage (Disk.mount created).node := fun _ => rfl
  have haccount : CreatedAccount sampleAccountPrims 0 none account := .generated _
  exact createdAccount_recovered keyFileLaws (.refl (Disk.mount [])) haccount env_account
    (fun _ h => (Except.ok.inj h).symm) rfl hnamed create_run
    (.tail (a := .powerLoss created) (.refl _) himage rfl)

end OneAccount

end BlockchainOps.AccountVault
