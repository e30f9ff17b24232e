import BlockchainOps.AccountVault.Envelope
import BlockchainOps.AccountVault.Mnemonic
import BlockchainOps.AccountVault.SealTheorems

/-!
# Paper backups

A backup page carries the secret of one key file, encrypted when it has a password, as base64 in a
QR code and as a mnemonic. `renderBackupPdf` lays pages out; what draws them belongs to other
packages and is a parameter.

Whatever `backupPage` accepts is restored by `mnemonicToBytes` and `decryptSecret`, and has room
on a page (`backupPage_restores`). The room is used up exactly: the largest secret, sealed, takes
all the words a page has.
-/

namespace BlockchainOps.AccountVault

open Text

/-- The largest opaque secret a backup page can carry. -/
def maxPrintableSecretLen : ℕ := 96

/-- An Algorand private key is 32 bytes. -/
def accountKeyLen : ℕ := 32

/-- One key file's worth of printable data. -/
structure BackupPage where
  name : String
  address : Option String
  encrypted : Bool
  secretLen : ℕ
  qrPayload : String
  mnemonic : String
deriving DecidableEq, Repr

inductive PageError
  | invalidPassphrase (name : String) (e : MnemonicError)
  | tooLong (name : String) (len : ℕ)
  | envelope (e : EnvelopeError)
deriving DecidableEq, Repr

/-- The `Display` form. -/
def PageError.display : PageError → String
  | invalidPassphrase name e => s!"invalid passphrase for '{name}': {e.display}"
  | tooLong name len =>
    s!"'{name}' is {len} bytes, and a backup page holds a secret of at most {maxPrintableSecretLen}"
  | envelope e => e.display

variable (p : EnvelopePrims) (wl : WordList) (sha512_256 : Bytes → Bytes)

/-- The address and passphrase of an account key file. -/
def accountFields (bytes : Bytes) : Option (String × String) := do
  let json ← (p.fromSlice bytes).toOption
  let address ← (← json.get "address").asStr
  let passphrase ← (← json.get "passphrase").asStr
  pure (address, passphrase)

/-- What a key file's page is to carry: its address, if it is an account, and the secret. -/
def pageSecret (name : String) (bytes : Bytes) : Except PageError (Option String × Bytes) :=
  match accountFields p bytes with
  | some (address, passphrase) =>
    match mnemonicToBytes wl sha512_256 (trim passphrase) accountKeyLen with
    | .ok key => .ok (some address, key)
    | .error e => .error (.invalidPassphrase name e)
  | none =>
    if bytes.length > maxPrintableSecretLen then .error (.tooLong name bytes.length)
    else .ok (none, bytes)

/-- The secret as it is printed: encrypted when there is a password. -/
def printedSecret (fastKdf : Bool) (draw : Draw) (secret : Bytes) :
    Option String → Except PageError Bytes
  | some password => (encryptSecret p fastKdf draw secret password).mapError .envelope
  | none => .ok secret

/-- Build the backup page for a key file's plaintext. -/
def backupPage (fastKdf : Bool) (draw : Draw) (name : String) (bytes : Bytes)
    (password : Option String) : Except PageError BackupPage := do
  let (address, secret) ← pageSecret p wl sha512_256 name bytes
  let secret ← printedSecret p fastKdf draw secret password
  .ok
    { name := name
      address := address
      encrypted := password.isSome
      secretLen := secret.length
      qrPayload := p.b64Encode secret
      mnemonic := bytesToMnemonic wl sha512_256 secret }

/-! ## Rendering -/

def mnemonicWordsPerLine : ℕ := 6
def mnemonicLines : ℕ := 18

/-- The most words a page has room for. -/
def maxMnemonicWords : ℕ := mnemonicWordsPerLine * mnemonicLines

inductive PdfError
  | noPages
  | tooManyWords (name : String) (words : ℕ)
  | drawing (e : String)
deriving DecidableEq, Repr

/-- The `Display` form. -/
def PdfError.display : PdfError → String
  | noPages => "no key files to print"
  | tooManyWords name words =>
    s!"'{name}' needs {words} mnemonic words, and a page holds {maxMnemonicWords}"
  | drawing e => e

/-- A page has room for its words. -/
def checkWords (page : BackupPage) : Except PdfError Unit :=
  let words := (splitWhitespace page.mnemonic).length
  if words > maxMnemonicWords then .error (.tooManyWords page.name words) else .ok ()

/-- Render the pages; `drawPages` lays out pages that have room for their words. -/
def renderBackupPdf (drawPages : List BackupPage → Except String Bytes)
    (pages : List BackupPage) : Except PdfError Bytes :=
  if pages = [] then .error .noPages
  else do
    pages.forM checkWords
    (drawPages pages).mapError .drawing

variable {p} {wl} {sha512_256}

/-! ## Compact secrets -/

/-- A cipher that decrypts what it encrypted, and adds a tag of 16 bytes. -/
def AesRoundTrip (p : EnvelopePrims) : Prop :=
  ∀ key nonce plaintext ciphertext, p.aesEncrypt key nonce plaintext = .ok ciphertext →
    p.aesDecrypt key nonce ciphertext = some plaintext ∧
      ciphertext.length = plaintext.length + 16

/-- The parts of a blob. -/
theorem encryptSecret_eq_ok {fastKdf : Bool} {draw : Draw} {plaintext blob : Bytes}
    {password : String} (h : encryptSecret p fastKdf draw plaintext password = .ok blob) :
    ∃ key ciphertext, deriveKeyWith p password draw.salt (argon2Cost fastKdf) = .ok key ∧
      p.aesEncrypt key draw.nonce plaintext = .ok ciphertext ∧
      blob = secretVersion :: (toLeBytes (argon2Cost fastKdf).m ++
        (argon2Cost fastKdf).t.toUInt8 :: (argon2Cost fastKdf).p.toUInt8 ::
          (draw.salt ++ (draw.nonce.1 ++ ciphertext))) := by
  unfold encryptSecret at h
  rcases hkey : deriveKeyWith p password draw.salt (argon2Cost fastKdf) with e | key
  · simp [hkey, bind, Except.bind] at h
  rcases hcipher : p.aesEncrypt key draw.nonce plaintext with e | ciphertext
  · simp [hkey, hcipher, bind, Except.bind] at h
  refine ⟨key, ciphertext, rfl, hcipher, ?_⟩
  have ht : narrowCost (argon2Cost fastKdf).t "t_cost" = .ok (argon2Cost fastKdf).t.toUInt8 := by
    cases fastKdf <;> rfl
  have hp : narrowCost (argon2Cost fastKdf).p "p_cost" = .ok (argon2Cost fastKdf).p.toUInt8 := by
    cases fastKdf <;> rfl
  simp only [hkey, hcipher, ht, hp, Fallible.mapError_ok, bind, Except.bind] at h
  exact (Except.ok.inj h).symm

/-- A blob is the secret and 51 bytes. -/
theorem length_encryptSecret (haes : AesRoundTrip p) {fastKdf : Bool} {draw : Draw}
    {plaintext blob : Bytes} {password : String}
    (h : encryptSecret p fastKdf draw plaintext password = .ok blob) :
    blob.length = plaintext.length + 51 := by
  obtain ⟨key, ciphertext, -, hcipher, rfl⟩ := encryptSecret_eq_ok h
  have hlen := (haes key draw.nonce plaintext ciphertext hcipher).2
  have hsalt := draw.salt_length
  have hnonce := draw.nonce.2
  simp only [List.length_cons, List.length_append, toLeBytes, List.length_nil]
  unfold saltLen at hsalt
  unfold nonceLen at hnonce
  omega

/-- The costs of a blob are read back from its bytes. -/
theorem argon2Cost_of_bytes (fastKdf : Bool) :
    (⟨fromLeBytes (argon2Cost fastKdf).m.toUInt8 ((argon2Cost fastKdf).m >>> 8).toUInt8
        ((argon2Cost fastKdf).m >>> 16).toUInt8 ((argon2Cost fastKdf).m >>> 24).toUInt8,
      (argon2Cost fastKdf).t.toUInt8.toUInt32, (argon2Cost fastKdf).p.toUInt8.toUInt32⟩ :
        Argon2Cost) = argon2Cost fastKdf := by
  cases fastKdf <;> decide

/-- A blob decrypts to the secret, whatever the environment says by then. -/
theorem decryptSecret_encryptSecret (haes : AesRoundTrip p) {fastKdf : Bool} {draw : Draw}
    {plaintext blob : Bytes} {password : String}
    (h : encryptSecret p fastKdf draw plaintext password = .ok blob) :
    decryptSecret p blob password = .ok plaintext := by
  have hlen := length_encryptSecret haes h
  obtain ⟨key, ciphertext, hkey, hcipher, hblob⟩ := encryptSecret_eq_ok h
  have hsalt := draw.salt_length
  have hnonce := draw.nonce.2
  -- the fields stand where decryption looks for them
  have hcost : (⟨fromLeBytes (blob.getD 1 0) (blob.getD 2 0) (blob.getD 3 0) (blob.getD 4 0),
      (blob.getD 5 0).toUInt32, (blob.getD 6 0).toUInt32⟩ : Argon2Cost)
        = argon2Cost fastKdf := by
    rw [hblob]
    exact argon2Cost_of_bytes fastKdf
  have hrest : blob.drop secretHeaderLen = draw.salt ++ (draw.nonce.1 ++ ciphertext) := by
    rw [hblob]
    rfl
  have hsalted : (blob.drop secretHeaderLen).take saltLen = draw.salt := by
    rw [hrest, List.take_left' hsalt]
  have hafter : blob.drop (secretHeaderLen + saltLen) = draw.nonce.1 ++ ciphertext := by
    rw [← List.drop_drop, hrest, List.drop_left' hsalt]
  have hnonced : (blob.drop (secretHeaderLen + saltLen)).take nonceLen = draw.nonce.1 := by
    rw [hafter, List.take_left' hnonce]
  have hciphered : blob.drop (secretHeaderLen + saltLen + nonceLen) = ciphertext := by
    rw [← List.drop_drop, hafter, List.drop_left' hnonce]
  have hversion : blob.getD 0 0 = secretVersion := by
    rw [hblob]
    rfl
  unfold decryptSecret
  rw [if_neg (by unfold secretHeaderLen saltLen nonceLen; omega), 
    if_neg fun hne => hne hversion]
  simp only [hcost, hsalted, hnonced, hciphered]
  rw [dif_pos hnonce, hkey]
  simp only [bind, Except.bind]
  rw [show (⟨draw.nonce.1, hnonce⟩ : Nonce) = draw.nonce from rfl,
    (haes key draw.nonce plaintext ciphertext hcipher).1]

/-! ## Pages -/

/-- What was printed gives `secret` back: as it is, or decrypted under the password. -/
def Restores (p : EnvelopePrims) (printed secret : Bytes) : Option String → Prop
  | none => printed = secret
  | some password => decryptSecret p printed password = .ok secret

/-- What is printed restores, and is at most 51 bytes longer than the secret. -/
theorem printedSecret_eq_ok (haes : AesRoundTrip p) {fastKdf : Bool} {draw : Draw}
    {secret printed : Bytes} {password : Option String}
    (h : printedSecret p fastKdf draw secret password = .ok printed) :
    Restores p printed secret password ∧ printed.length ≤ secret.length + 51 := by
  rcases password with _ | pw
  · have heq : printed = secret := (Except.ok.inj h).symm
    exact ⟨heq, by rw [heq]; omega⟩
  · rcases hblob : encryptSecret p fastKdf draw secret pw with e | blob
    · simp [printedSecret, hblob] at h
    · have heq : blob = printed := by simpa [printedSecret, hblob] using h
      rw [← heq]
      exact ⟨decryptSecret_encryptSecret haes hblob, by rw [length_encryptSecret haes hblob]⟩

/-- A page carries what was printed of the key file's secret. -/
theorem backupPage_eq_ok {fastKdf : Bool} {draw : Draw} {name : String} {bytes : Bytes}
    {password : Option String} {page : BackupPage}
    (h : backupPage p wl sha512_256 fastKdf draw name bytes password = .ok page) :
    ∃ address secret printed, pageSecret p wl sha512_256 name bytes = .ok (address, secret) ∧
      printedSecret p fastKdf draw secret password = .ok printed ∧
      page.secretLen = printed.length ∧ page.qrPayload = p.b64Encode printed ∧
      page.mnemonic = bytesToMnemonic wl sha512_256 printed := by
  unfold backupPage at h
  rcases hsecret : pageSecret p wl sha512_256 name bytes with e | ⟨address, secret⟩
  · simp [hsecret, bind, Except.bind] at h
  rcases hprinted : printedSecret p fastKdf draw secret password with e | printed
  · simp [hsecret, hprinted, bind, Except.bind] at h
  simp only [hsecret, hprinted, bind, Except.bind] at h
  have hpage := (Except.ok.inj h).symm
  refine ⟨address, secret, printed, rfl, hprinted, ?_, ?_, ?_⟩ <;> rw [hpage]

/-- A decoded mnemonic has the length asked for. -/
theorem length_of_mnemonicToBytes {m : String} {n : ℕ} {bytes : Bytes}
    (h : mnemonicToBytes wl sha512_256 m n = .ok bytes) : bytes.length = n := by
  unfold mnemonicToBytes at h
  rcases hcheck : (splitWhitespace m).getLast? with _ | check
  · simp [hcheck] at h
  rcases hnums : (splitWhitespace m).dropLast.mapM (wordIndex wl) with e | nums
  · simp [hcheck, hnums, bind, Except.bind] at h
  simp only [hcheck, hnums, bind, Except.bind] at h
  split_ifs at h with hshort hsum
  rw [← Except.ok.inj h, List.length_take]
  omega

/-- The secret of a page is the key of an account, or the bytes of any other file. -/
theorem pageSecret_eq_ok {name : String} {bytes : Bytes} {address : Option String}
    {secret : Bytes} (h : pageSecret p wl sha512_256 name bytes = .ok (address, secret)) :
    ((∃ addr passphrase, accountFields p bytes = some (addr, passphrase) ∧
        mnemonicToBytes wl sha512_256 (trim passphrase) accountKeyLen = .ok secret) ∨
      (accountFields p bytes = none ∧ secret = bytes)) ∧ secret.length ≤ maxPrintableSecretLen := by
  unfold pageSecret at h
  rcases hfields : accountFields p bytes with _ | ⟨addr, passphrase⟩
  · rw [hfields] at h
    simp only at h
    split_ifs at h with hlong
    have hsecret : bytes = secret := congrArg Prod.snd (Except.ok.inj h)
    exact ⟨Or.inr ⟨rfl, hsecret.symm⟩, by rw [← hsecret]; omega⟩
  · rw [hfields] at h
    simp only at h
    rcases hkey : mnemonicToBytes wl sha512_256 (trim passphrase) accountKeyLen with e | key
    · simp [hkey] at h
    · rw [hkey] at h
      have hsecret : key = secret := congrArg Prod.snd (Except.ok.inj h)
      rw [← hsecret]
      refine ⟨Or.inl ⟨addr, passphrase, rfl, hkey⟩, ?_⟩
      rw [length_of_mnemonicToBytes hkey]
      decide

/-- A page that is made has room for its words. -/
theorem words_of_backupPage (haes : AesRoundTrip p) {fastKdf : Bool} {draw : Draw} {name : String}
    {bytes : Bytes} {password : Option String} {page : BackupPage}
    (h : backupPage p wl sha512_256 fastKdf draw name bytes password = .ok page) :
    (splitWhitespace page.mnemonic).length ≤ maxMnemonicWords ∧ checkWords page = .ok () := by
  obtain ⟨address, secret, printed, hsecret, hprinted, -, -, hmnemonic⟩ := backupPage_eq_ok h
  have hsize := (pageSecret_eq_ok hsecret).2
  have hprintedSize := (printedSecret_eq_ok haes hprinted).2
  unfold maxPrintableSecretLen at hsize
  have hfits : (splitWhitespace page.mnemonic).length ≤ maxMnemonicWords := by
    rw [hmnemonic, splitWhitespace_bytesToMnemonic, mnemonicWords, List.length_append,
      List.length_map, List.length_singleton, length_toU11]
    unfold maxMnemonicWords mnemonicWordsPerLine mnemonicLines
    omega
  refine ⟨hfits, ?_⟩
  unfold checkWords
  rw [if_neg (by omega)]

/-- Pages that have room for their words reach the drawing. -/
theorem renderBackupPdf_of_checkWords {drawPages : List BackupPage → Except String Bytes}
    {pages : List BackupPage} (hne : pages ≠ [])
    (h : ∀ page ∈ pages, checkWords page = .ok ()) :
    renderBackupPdf drawPages pages = (drawPages pages).mapError .drawing := by
  have hchecked : pages.forM checkWords = .ok () := by
    clear hne
    induction pages with
    | nil => rfl
    | cons page pages ih =>
      show (checkWords page >>= fun _ => pages.forM checkWords) = _
      rw [h page List.mem_cons_self, ih fun other hother => h other (List.mem_cons_of_mem page hother)]
      rfl
  unfold renderBackupPdf
  rw [if_neg hne, hchecked]
  rfl

/-- A printed backup page restores. The mnemonic decodes to what the QR code carries; that is the
secret, or a blob that decrypts to it under the password the page was made with. The secret is the
key an account's passphrase encodes, or the bytes of any other file. And the page has room for
its words. -/
theorem backupPage_restores (p : EnvelopePrims) (wl : WordList) (sha512_256 : Bytes → Bytes)
    (haes : AesRoundTrip p) (hbase64 : ∀ bytes, p.b64Decode (p.b64Encode bytes) = .ok bytes)
    (fastKdf : Bool) (draw : Draw) (name : String) (bytes : Bytes) (password : Option String)
    (page : BackupPage)
    (h : backupPage p wl sha512_256 fastKdf draw name bytes password = .ok page) :
    ∃ printed secret, mnemonicToBytes wl sha512_256 page.mnemonic page.secretLen = .ok printed ∧
      p.b64Decode page.qrPayload = .ok printed ∧
      Restores p printed secret password ∧
      (match accountFields p bytes with
        | some (_, passphrase) => secret.length = 32 ∧
          mnemonicToBytes wl sha512_256 (trim passphrase) 32 = .ok secret
        | none => secret = bytes) ∧
      (splitWhitespace page.mnemonic).length ≤ maxMnemonicWords ∧ checkWords page = .ok () := by
  obtain ⟨address, secret, printed, hsecret, hprinted, hlen, hqr, hmnemonic⟩ := backupPage_eq_ok h
  have hkind := (pageSecret_eq_ok hsecret).1
  have hrestores := (printedSecret_eq_ok haes hprinted).1
  obtain ⟨hfits, hchecked⟩ := words_of_backupPage haes h
  refine ⟨printed, secret, ?_, ?_, hrestores, ?_, hfits, hchecked⟩
  · rw [hmnemonic, hlen]
    exact mnemonicToBytes_bytesToMnemonic printed
  · rw [hqr]
    exact hbase64 printed
  · rcases hkind with ⟨addr, passphrase, hfields, hkey⟩ | ⟨hfields, heq⟩
    · rw [hfields]
      exact ⟨length_of_mnemonicToBytes hkey, hkey⟩
    · rw [hfields]
      exact heq

/-! ## One page -/

/-- A word list: one to 2048 times the letter a. -/
def sampleWords : WordList where
  words := (List.range 2048).map fun i => String.ofList (List.replicate (i + 1) 'a')
  length_eq := by rw [List.length_map, List.length_range]
  nodup := by
    refine List.Nodup.map (fun i j h => ?_) List.nodup_range
    have hlists := congrArg String.toList h
    rw [String.toList_ofList, String.toList_ofList] at hlists
    have hlen := congrArg List.length hlists
    rw [List.length_replicate, List.length_replicate] at hlen
    omega
  nonblank := by
    intro w hw
    obtain ⟨i, -, rfl⟩ := List.mem_map.mp hw
    rw [String.toList_ofList]
    refine ⟨by simp, fun c hc => ?_⟩
    rw [List.eq_of_mem_replicate hc]
    decide

/-- The tag of the stand-in cipher takes 16 bytes. -/
theorem aesRoundTrip_sample : AesRoundTrip samplePrims := by
  intro key nonce plaintext ciphertext h
  have htag : (key.1.take 16).length = 16 := by
    rw [List.length_take, key.2]
    rfl
  have hparts : key.1.take 16 ++ plaintext = ciphertext := Except.ok.inj h
  subst hparts
  constructor
  · show (if (key.1.take 16 ++ plaintext).take 16 = key.1.take 16 then
      some ((key.1.take 16 ++ plaintext).drop 16) else none) = some plaintext
    rw [List.take_left' htag, if_pos rfl, List.drop_left' htag]
  · rw [List.length_append, htag, Nat.add_comm]

/-- The secret [7, 8], encrypted under "pw". -/
def sampleBlob : Bytes :=
  secretVersion :: (toLeBytes 8 ++ 1 :: 1 :: (sampleDraw.salt ++ (sampleDraw.nonce.1 ++
    ((sampleKey (utf8 "pw")).1.take 16 ++ [7, 8]))))

/-- Its page. -/
def samplePage : BackupPage where
  name := "a"
  address := none
  encrypted := true
  secretLen := sampleBlob.length
  qrPayload := sampleText sampleBlob
  mnemonic := bytesToMnemonic sampleWords id sampleBlob

theorem backupPage_restores_samplePage :
    ∃ printed, mnemonicToBytes sampleWords id samplePage.mnemonic samplePage.secretLen
        = .ok printed ∧
      samplePrims.b64Decode samplePage.qrPayload = .ok printed ∧
      decryptSecret samplePrims printed "pw" = .ok [7, 8] ∧ checkWords samplePage = .ok () := by
  have hblob : encryptSecret samplePrims true sampleDraw [7, 8] "pw" = .ok sampleBlob := by decide
  have hpage : backupPage samplePrims sampleWords id true sampleDraw "a" [7, 8] (some "pw")
      = .ok samplePage := by
    unfold backupPage
    rw [show pageSecret samplePrims sampleWords id "a" [7, 8] = .ok (none, [7, 8]) from rfl]
    simp only [printedSecret, hblob, Fallible.mapError_ok, bind, Except.bind]
    rfl
  obtain ⟨printed, secret, hdecodes, hqr, hrestores, hkind, -, hwords⟩ :=
    backupPage_restores samplePrims sampleWords id aesRoundTrip_sample
      (fun bytes => congrArg Except.ok (sampleBytes_sampleText bytes)) true sampleDraw "a" [7, 8]
      (some "pw") samplePage hpage
  have hsecret : secret = [7, 8] := hkind
  refine ⟨printed, hdecodes, hqr, ?_, hwords⟩
  rw [← hsecret]
  exact hrestores

end BlockchainOps.AccountVault
