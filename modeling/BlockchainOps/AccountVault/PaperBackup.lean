import BlockchainOps.AccountVault.VaultRuns

/-!
# A backup on paper

`print` makes a page of every key file that its scan finds, and a page gets back the key of its file
with the password that the file was opened with, and nothing else: neither the disk nor the vault.

`printed_keeps_keys` says so of a vault with any history that is used with one password.
-/

namespace BlockchainOps.AccountVault

open Effect Proc Storage Text

/-! ## What a page gets back -/

section Pages

variable (p : EnvelopePrims) (wl : WordList) (sha512_256 : Bytes → Bytes)

/-- What a page carries of a key: the key that an account's passphrase encodes, or the bytes of any
other file. -/
def SecretOf (key secret : Bytes) : Prop :=
  (∃ address passphrase, accountFields p key = some (address, passphrase) ∧
    mnemonicToBytes wl sha512_256 (trim passphrase) accountKeyLen = .ok secret) ∨
  (accountFields p key = none ∧ secret = key)

/-- Both codes of the page give the key's secret to whoever has `password`. -/
def BackupPage.GetsBack (page : BackupPage) (password : String) (key : Bytes) : Prop :=
  ∃ printed secret, p.b64Decode page.qrPayload = .ok printed ∧
    mnemonicToBytes wl sha512_256 page.mnemonic page.secretLen = .ok printed ∧
    Restores p printed secret (if page.encrypted then some password else none) ∧
    SecretOf p wl sha512_256 key secret

variable {p wl sha512_256}

theorem encrypted_of_backupPage {fastKdf : Bool} {draw : Draw} {name : String} {bytes : Bytes}
    {password : Option String} {page : BackupPage}
    (h : backupPage p wl sha512_256 fastKdf draw name bytes password = .ok page) :
    page.encrypted = password.isSome := by
  unfold backupPage at h
  obtain ⟨⟨address, secret⟩, -, h⟩ := Fallible.bind_eq_ok.mp h
  obtain ⟨printed, -, h⟩ := Fallible.bind_eq_ok.mp h
  rw [← Except.ok.inj h]

theorem backupPage_getsBack (haes : AesRoundTrip p)
    (hbase64 : ∀ bytes, p.b64Decode (p.b64Encode bytes) = .ok bytes) {fastKdf : Bool} {draw : Draw}
    {name password : String} {bytes : Bytes} {wasSealed : Bool} {page : BackupPage}
    (h : backupPage p wl sha512_256 fastKdf draw name bytes
      (if wasSealed then some password else none) = .ok page) :
    page.GetsBack p wl sha512_256 password bytes := by
  obtain ⟨address, secret, printed, hsecret, hprinted, hlen, hqr, hmnemonic⟩ := backupPage_eq_ok h
  have hencrypted := encrypted_of_backupPage h
  refine ⟨printed, secret, ?_, ?_, ?_, (pageSecret_eq_ok hsecret).1⟩
  · rw [hqr]
    exact hbase64 printed
  · rw [hmnemonic, hlen]
    exact mnemonicToBytes_bytesToMnemonic printed
  · rw [hencrypted]
    cases wasSealed <;> exact (printedSecret_eq_ok haes hprinted).1

end Pages

/-! ## One password -/

/-- The vault of a session knows no password, or `password`. -/
def Session.Knows {κ : Type} (password : String) (s : Session κ) : Prop :=
  s.vault = .withPassword password ∨ s.vault = .new

/-- What keeps to one password. -/
def KeepsTo {κ : Type} (password : String) (s s' : Session κ) : Prop :=
  s.Knows password → s'.Knows password

instance {κ : Type} (password : String) :
    Std.Refl (KeepsTo password : Session κ → Session κ → Prop) := ⟨fun _ h => h⟩

instance {κ : Type} (password : String) : IsTrans (Session κ) (KeepsTo password) :=
  ⟨fun _ _ _ h h' hs => h' (h hs)⟩

section OnePassword

variable {κ : Type} {p : EnvelopePrims} {password : String}

theorem decrypt_keepsTo (path : Path) (envelope : Bytes) :
    Respects (KeepsTo password)
      (Vault.decrypt p (pure password) path envelope : Proc (Session κ) VaultError Opened) := by
  unfold Vault.decrypt
  refine Respects.get.bind fun s => ?_
  cases s.vault.password.bind fun password => (decryptBytes p envelope password).toOption with
  | some bytes => exact Respects.pure _
  | none =>
    -- the caller's answer is the one password
    show Respects (KeepsTo password) (ofExcept ((decryptBytes p envelope password).mapError
      fun _ => VaultError.doesNotOpen path) >>= _)
    refine (Respects.ofExcept _).bind fun bytes => ?_
    exact Respects.bind (x := modify fun s : Session κ => { s with vault := ⟨some password⟩ })
      (fun _ _ => Or.inl rfl) fun _ => Respects.pure _

theorem onDisk_keepsTo {ε α : Type} (x : Proc VaultDisk ε α) :
    Respects (KeepsTo password) (Session.onDisk x : Proc (Session κ) ε α) := fun _ hs => hs

theorem vaultOpen_keepsTo (f : Fault) (file : KeyFile) :
    Respects (KeepsTo password)
      (Vault.open p (pure password) f file : Proc (Session κ) VaultError Opened) := by
  unfold Vault.open
  refine Respects.get.bind fun s => ?_
  split_ifs
  · refine (onDisk_keepsTo _).bind fun bytes => ?_
    split_ifs
    · exact decrypt_keepsTo _ _
    · exact Respects.pure _
  · exact (onDisk_keepsTo _).bind fun bytes => decrypt_keepsTo _ _
  · exact Respects.raise _

/-- What is opened with one password is what is stored under it. -/
theorem vaultOpen_storedAs {f : Fault} {file : KeyFile} {s s' : Session κ} {opened : Opened}
    (hs : s.Knows password) (h : Vault.open p (pure password) f file s = (.ok opened, s')) :
    s'.disk = s.disk ∧ s'.Knows password ∧ StoredAs p password file s.disk opened.bytes ∧
      (opened.wasSealed = true → s'.vault.password = some password) := by
  have hknows : s'.Knows password := by
    have hkept : KeepsTo password s (Vault.open p (pure password) f file s).2 :=
      vaultOpen_keepsTo f file s
    rw [h] at hkept
    exact hkept hs
  obtain ⟨hdisk, ⟨-, content, held, hstored, hheld, hopens⟩ | ⟨hplain, hstored, hclear, -⟩⟩ :=
    vaultOpen_ok p _ h
  · have hsame : held = password := by
      rcases hknows with hvault | hvault
      · rw [hvault] at hheld
        exact (Option.some.inj hheld).symm
      · rw [hvault] at hheld
        exact absurd hheld (by simp [Vault.new])
    rw [hsame] at hopens hheld
    exact ⟨hdisk, hknows, ⟨content, hstored, Or.inl hopens⟩, fun _ => hheld⟩
  · refine ⟨hdisk, hknows, ⟨_, hstored, Or.inr ⟨hclear, rfl⟩⟩, fun hsealed => ?_⟩
    exact absurd (hsealed.symm.trans hplain) (by simp)

/-- Under one password one key is stored. -/
theorem StoredAs.unique {file : KeyFile} {d : VaultDisk} {key key' : Bytes}
    (h : StoredAs p password file d key) (h' : StoredAs p password file d key') : key = key' := by
  obtain ⟨content, hstored, hgives⟩ := h
  obtain ⟨content', hstored', hgives'⟩ := h'
  obtain rfl : content = content' := Option.some.inj (hstored.symm.trans hstored')
  -- a file in the clear is no envelope
  have hclear : ∀ {key : Bytes}, decryptBytes p content password = .ok key →
      ¬ IsPlainFile p d file := by
    rintro key hopens ⟨content', hnode, hmark⟩
    have hsame : content' = content := by
      simpa [storedForm, hnode] using hstored
    rw [hsame, isEncryptedEnvelope_of_decryptBytes hopens] at hmark
    exact absurd hmark (by simp)
  rcases hgives with hopens | ⟨hplain, rfl⟩
  · rcases hgives' with hopens' | ⟨hplain', -⟩
    · exact Except.ok.inj (hopens.symm.trans hopens')
    · exact absurd hplain' (hclear hopens)
  · rcases hgives' with hopens' | ⟨-, rfl⟩
    · exact absurd hplain (hclear hopens')
    · rfl

end OnePassword

/-! ## What is printed -/

section Print

variable {κ : Type} {p : EnvelopePrims} {env : PrintEnv} {password : String}

/-- The page of a file gets back what is stored of it. -/
def PageOf (p : EnvelopePrims) (env : PrintEnv) (password : String) (d : VaultDisk)
    (file : KeyFile) (page : BackupPage) : Prop :=
  ∃ key, StoredAs p password file d key ∧
    page.GetsBack p env.wordList env.sha512_256 password key

theorem printPage_pageOf (haes : AesRoundTrip p)
    (hbase64 : ∀ bytes, p.b64Decode (p.b64Encode bytes) = .ok bytes) (root : Path) (file : KeyFile)
    (d : VaultDisk) :
    Triple (fun s : Session κ => s.disk = d ∧ s.Knows password)
      (printPage p env (pure password) root file)
      (fun page s => (s.disk = d ∧ s.Knows password) ∧ PageOf p env password d file page)
      (fun _ _ => True) := by
  unfold printPage
  have hopen : Triple (fun s : Session κ => s.disk = d ∧ s.Knows password)
      (mapErr PrintError.vault (Vault.open p (pure password) (env.read file) file))
      (fun opened s => (s.disk = d ∧ s.Knows password) ∧
        StoredAs p password file d opened.bytes ∧
        (opened.wasSealed = true → s.vault.password = some password))
      (fun _ _ => True) := by
    refine Triple.mapErr fun s hs => ?_
    rcases hrun : Vault.open p (pure password) (env.read file) file s with ⟨opened | e | w, s'⟩
    · obtain ⟨hdisk, hknows, hstored, hheld⟩ := vaultOpen_storedAs hs.2 hrun
      rw [hs.1] at hdisk hstored
      exact ⟨⟨hdisk, hknows⟩, hstored, hheld⟩
    · exact trivial
    · exact trivial
  refine hopen.bind fun opened => ?_
  refine Triple.bind (Triple.get (Q := fun seen s => seen = s ∧ (s.disk = d ∧ s.Knows password) ∧
    StoredAs p password file d opened.bytes ∧
    (opened.wasSealed = true → s.vault.password = some password)) fun s hs => ⟨rfl, hs⟩)
    fun seen => ?_
  refine Triple.ofExcept (fun page hpage s hs => ?_) fun _ _ _ _ => trivial
  obtain ⟨rfl, hkept, hstored, hheld⟩ := hs
  refine ⟨hkept, opened.bytes, hstored, ?_⟩
  have hmade := Fallible.mapError_eq_ok.mp hpage
  have hunder : (if opened.wasSealed then seen.vault.password else none)
      = if opened.wasSealed then some password else none := by
    by_cases hsealed : opened.wasSealed = true
    · rw [if_pos hsealed, if_pos hsealed, hheld hsealed]
    · rw [if_neg hsealed, if_neg hsealed]
  rw [hunder] at hmade
  exact backupPage_getsBack haes hbase64 hmade

/-- `print` with one password makes a page of every key file that its scan finds, which gets back
what is stored of it. -/
theorem printCommand_pagesOf (haes : AesRoundTrip p)
    (hbase64 : ∀ bytes, p.b64Decode (p.b64Encode bytes) = .ok bytes) {args : PrintArgs}
    {s s' : Session κ} {pages : List BackupPage}
    (h : printCommand p env (pure password) args s = (.ok pages, s')) :
    ∃ files, (discover .ok args.dir args.recursive s.disk).1 = .ok files ∧
      List.Forall₂ (PageOf p env password s.disk) files pages :=
  printCommand_pages p env (pure password) (J := fun t => t.disk = s.disk ∧ t.Knows password)
    ⟨rfl, Or.inr rfl⟩ (fun file => printPage_pageOf haes hbase64 args.dir file s.disk) h

end Print

/-! ## What a scan finds -/

/-- The directories that a scan of `dir` goes into. -/
inductive ScansDir (d : VaultDisk) (recursive : Bool) (dir : Path) : Path → Prop
  | here : ScansDir d recursive dir dir
  | beneath {sub sub' : Path} (into : recursive = true) (scans : ScansDir d recursive dir sub)
      (child : sub' ∈ childrenOf d sub) (isDir : d.isDir sub' = true) :
      ScansDir d recursive dir sub'

section Found

variable {p : EnvelopePrims} {passwords : Set String} {file : KeyFile} {key : Bytes}
  {d : VaultDisk} {recursive : Bool} {dir : Path}

theorem ScansDir.keyFileIn {sub path : Path} (h : ScansDir d recursive dir sub)
    (hin : KeyFileIn d recursive sub path) : KeyFileIn d recursive dir path := by
  induction h with
  | here => exact hin
  | beneath into _ child isDir ih => exact ih (.beneath into child isDir hin)

theorem ScansDir.entry {path : Path} {content : Bytes} (h : ScansDir d recursive dir path.dropLast)
    (hname : isKeyFileName (path.getLast?.getD []) = true)
    (hnode : d.node path = some (.file content)) : KeyFileIn d recursive dir path := by
  have hne : path ≠ [] := by
    rintro rfl
    exact absurd hname (by decide)
  exact h.keyFileIn (.entry (mem_childrenOf_iff.mpr ⟨by simp [hnode], hne, rfl⟩)
    (by simp [Disk.isDir, hnode]) hname)

/-- A key file whose key is safe is found by a scan that goes into its directory. -/
theorem Held.found (hnamed : file.Named) (h : Held p passwords file key d)
    (hscans : ScansDir d recursive dir file.plain.dropLast) :
    ∃ path, KeyFileIn d recursive dir path ∧ file = KeyFile.at path := by
  obtain ⟨dir₀, plain, hparts, hplain⟩ := hnamed.parts
  obtain ⟨path⟩ := file
  obtain rfl : path = dir₀ ++ [plain] := hparts
  obtain ⟨hat, hat'⟩ := at_plain_and_sealed hplain hnamed.isStr
  cases h with
  | plain _ node _ =>
    have hname : isKeyFileName (((dir₀ ++ [plain]).getLast?).getD []) = true := by
      simpa using isKeyFileName_iff.mpr ⟨plain, hplain, Or.inl rfl⟩
    exact ⟨dir₀ ++ [plain], hscans.entry hname node, hat.symm⟩
  | sealedForm _ _ node _ _ _ =>
    rw [sealedPath_append] at node
    have hname : isKeyFileName (((dir₀ ++ [plain ++ sealedSuffix]).getLast?).getD []) = true := by
      simpa using isKeyFileName_iff.mpr ⟨plain, hplain, Or.inr rfl⟩
    have hsame : (dir₀ ++ [plain ++ sealedSuffix]).dropLast = (dir₀ ++ [plain]).dropLast := by simp
    exact ⟨dir₀ ++ [plain ++ sealedSuffix], ScansDir.entry (hsame ▸ hscans) hname node, hat'.symm⟩

end Found

/-! ## A vault and its paper -/

/-- The paper keeps the keys too. In a vault with any history that is used with one password, a
`print` with that password over the directory of a key file with a proper name makes a page of it,
and the page alone gets back the file's key with the password. -/
theorem printed_keeps_keys {κ : Type} {p : EnvelopePrims} {env : PrintEnv} {password : String}
    {file : KeyFile} {key : Bytes} {d d' : VaultDisk} {args : PrintArgs} {s s' : Session κ}
    {pages : List BackupPage} (haes : AesRoundTrip p)
    (hbase64 : ∀ bytes, p.b64Decode (p.b64Encode bytes) = .ok bytes) (hnamed : file.Named)
    (hentrusted : Entrusted p {password} file key d) (hrun : VaultRun p {password} d d')
    (hdisk : s.disk = d') (hscans : ScansDir d' args.recursive args.dir file.plain.dropLast)
    (hprint : printCommand p env (pure password) args s = (.ok pages, s')) :
    ∃ page ∈ pages, page.GetsBack p env.wordList env.sha512_256 password key := by
  subst hdisk
  have hheld := run_held hnamed hrun (hentrusted.held hnamed)
  obtain ⟨files, hfiles, hpages⟩ := printCommand_pagesOf haes hbase64 hprint
  have hfile := ((discover_finds hfiles).2 file).mpr (hheld.found hnamed hscans)
  obtain ⟨i, hi⟩ := List.get_of_mem hfile
  obtain ⟨key', hstored', hgets⟩ := hpages.get i.2 (hpages.length_eq ▸ i.2)
  have hat : files.get ⟨i.1, i.2⟩ = file := hi
  rw [hat] at hstored'
  obtain ⟨password', hpassword, hstored⟩ := hheld.storedAs
  obtain rfl : password' = password := hpassword
  rw [← hstored.unique hstored'] at hgets
  exact ⟨_, List.get_mem _ _, hgets⟩

/-! ## One page -/

namespace OnePaper

open OneVault

/-- A `print` that meets no fault. -/
def env : PrintEnv where
  scan := .ok
  read _ := .none
  fastKdf := true
  draw _ := sampleDraw
  wordList := sampleWords
  sha512_256 := id
  drawPages _ := .ok []
  openOut := .none
  writeOut := .none

/-- `print --out o .` -/
def args : PrintArgs := ⟨[], [[0x6F]], false⟩

/-- The disk once `a.key` is sealed under "pw". -/
def sealedDisk : VaultDisk :=
  (sealHere.run samplePrims (sampleEnv "pw" .ok) (Disk.mount clearNodes)).2

def page : BackupPage where
  name := sampleFile.nameUnder args.dir
  address := none
  encrypted := true
  secretLen := sampleBlob.length
  qrPayload := sampleText sampleBlob
  mnemonic := bytesToMnemonic sampleWords id sampleBlob

theorem page_eq : backupPage samplePrims sampleWords id true sampleDraw
    (sampleFile.nameUnder args.dir) [7, 8] (some "pw") = .ok page := by
  have hblob : encryptSecret samplePrims true sampleDraw [7, 8] "pw" = .ok sampleBlob := by decide
  unfold backupPage
  rw [show pageSecret samplePrims sampleWords id (sampleFile.nameUnder args.dir) [7, 8]
    = .ok (none, [7, 8]) from rfl]
  simp only [printedSecret, hblob, Fallible.mapError_ok, bind, Except.bind]
  rfl

theorem printPage_run :
    printPage samplePrims env (pure "pw") args.dir sampleFile ⟨.new, (), sealedDisk⟩
      = (.ok page, ⟨.withPassword "pw", (), sealedDisk⟩) := by
  have hopen : mapErr PrintError.vault (Vault.open samplePrims (pure "pw") (env.read sampleFile)
      sampleFile) ⟨.new, (), sealedDisk⟩
        = (.ok ⟨[7, 8], true⟩, ⟨.withPassword "pw", (), sealedDisk⟩) := by
    have hopens : decryptBytes samplePrims keyEnvelope "pw" = .ok [7, 8] := by decide
    have hform : storedForm sealedDisk sampleFile = some keyEnvelope := by decide
    obtain ⟨wasSealed, hrun⟩ := vaultOpen_of_stored (pure "pw") .new ()
      ⟨keyEnvelope, hform, Or.inl hopens⟩ (Or.inr ⟨rfl, rfl⟩)
    cases wasSealed with
    | true => exact mapErr_ok_iff.mpr hrun
    | false =>
      -- nothing stands at the plaintext's path
      obtain ⟨-, ⟨hsealed, -⟩ | ⟨-, -, ⟨content, hnode, -⟩, -⟩⟩ := vaultOpen_ok samplePrims _ hrun
      · exact absurd hsealed (by simp)
      · have hnone : sealedDisk.node sampleFile.plain = none := by decide
        exact absurd (hnone.symm.trans hnode) (by simp)
  unfold printPage
  rw [bind_of_ok hopen, bind_of_ok (get_apply _)]
  show ofExcept ((backupPage samplePrims sampleWords id true sampleDraw
    (sampleFile.nameUnder args.dir) [7, 8] (some "pw")).mapError PrintError.page) _ = _
  rw [page_eq]
  rfl

theorem print_run : ∃ s',
    printCommand samplePrims env (pure "pw") args ⟨.new, (), sealedDisk⟩ = (.ok [page], s') := by
  have hscan : mapErr PrintError.vault (discover env.scan args.dir args.recursive) sealedDisk
      = (.ok [sampleFile], sealedDisk) := by decide
  have hfiles : Session.onDisk (mapErr PrintError.vault
      (discover env.scan args.dir args.recursive)) (⟨.new, (), sealedDisk⟩ : Session Unit)
        = (.ok [sampleFile], ⟨.new, (), sealedDisk⟩) := by
    unfold Session.onDisk
    rw [hscan]
  have hpages : forEach (printPage samplePrims env (pure "pw") args.dir) [sampleFile]
      ⟨.new, (), sealedDisk⟩ = (.ok [page], ⟨.withPassword "pw", (), sealedDisk⟩) := by
    unfold forEach
    rw [bind_of_ok printPage_run]
    rfl
  have hpdf : renderBackupPdf env.drawPages [page] = .ok [] := by
    rw [renderBackupPdf_of_checkWords (by simp)]
    · rfl
    · intro other hother
      rw [List.mem_singleton.mp hother]
      exact (words_of_backupPage aesRoundTrip_sample page_eq).2
  unfold printCommand
  rw [bind_of_ok hfiles, if_neg (by simp), bind_of_ok (modify_apply _ _), bind_of_ok hpages, hpdf]
  exact ⟨_, rfl⟩

/-- `a.key` is sealed and printed. -/
theorem printed_keeps_keys_one_page :
    page.GetsBack samplePrims sampleWords id "pw" [7, 8] := by
  have hnamed : sampleFile.Named := ⟨by decide, [0x6B, 0x65, 0x79], by decide, by decide⟩
  have hfound : Entrusted samplePrims {"pw"} sampleFile [7, 8] (Disk.mount clearNodes) :=
    .found rfl fun κ prompt caller => ⟨false, rfl⟩
  have hrun : VaultRun samplePrims {"pw"} (Disk.mount clearNodes) sealedDisk :=
    .tail (a := .command (sampleEnv "pw" .ok) sealHere) (.refl _)
      (fun _ h => (Except.ok.inj h).symm) rfl
  have hscans : ScansDir sealedDisk args.recursive args.dir sampleFile.plain.dropLast := .here
  obtain ⟨s', hprint⟩ := print_run
  obtain ⟨made, hmade, hgets⟩ := printed_keeps_keys aesRoundTrip_sample
    (fun bytes => congrArg Except.ok (sampleBytes_sampleText bytes)) hnamed hfound hrun
    (Eq.refl sealedDisk) hscans hprint
  rwa [List.mem_singleton.mp hmade] at hgets

end OnePaper

end BlockchainOps.AccountVault
