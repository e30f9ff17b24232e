import BlockchainOps.AccountVault.Backup
import BlockchainOps.AccountVault.OpenTheorems

/-!
# Changing the password of envelopes

`reencryptEnvelope` moves an envelope to a new password. The password that opened the last one is
kept for the next (`Reencryption.oldPassword`), and the caller is asked only when neither the new
password nor that one opens the envelope.

The result opens to what the envelope held when the packages keep `EnvelopeLaws`, and the passwords
in use open only what they have locked (`Separates`). `reencryptions_kept` says so of every call in
a sequence.
-/

namespace BlockchainOps.AccountVault

open Effect Proc Keyring

/-! ## One envelope -/

/-- The old password that opened an envelope last, and the caller who is asked for one. -/
structure Reencryption (κ : Type) where
  oldPassword : Option String
  caller : κ
deriving DecidableEq, Repr

inductive ReencryptError
  | envelope (e : EnvelopeError)
  | oldPassword
  | prompt (message : String)
deriving DecidableEq, Repr

/-- The `Display` form. -/
def ReencryptError.display : ReencryptError → String
  | envelope e => e.display
  | oldPassword => "old password did not decrypt this file"
  | prompt message => message

section Model

variable {κ : Type} (p : EnvelopePrims) (promptOld : Proc κ ReencryptError String)

/-- Ask the caller for the old password. -/
def askOld : Proc (Reencryption κ) ReencryptError String := fun s =>
  ((promptOld s.caller).1, { s with caller := (promptOld s.caller).2 })

/-- What the envelope holds: the old password is tried first, and then the caller is asked. -/
def oldPlaintext (envelope : Bytes) : Proc (Reencryption κ) ReencryptError Bytes := do
  let s ← get
  match s.oldPassword.bind fun pw => (decryptBytes p envelope pw).toOption with
  | some plaintext => pure plaintext
  | none => do
    let pw ← askOld promptOld
    let plaintext ← ofExcept ((decryptBytes p envelope pw).mapError fun _ => .oldPassword)
    modify fun s => { s with oldPassword := some pw }
    pure plaintext

/-- Re-encrypt an envelope under `newPassword`; nothing where that opens it already. -/
def reencryptEnvelope (fastKdf : Bool) (draw : Draw) (envelope : Bytes) (newPassword : String) :
    Proc (Reencryption κ) ReencryptError (Option Bytes) :=
  if !isEncryptedEnvelope p envelope then raise (.envelope .notEnvelope)
  else
    match decryptBytes p envelope newPassword with
    | .ok _ => pure none
    | .error _ => do
      let plaintext ← oldPlaintext p promptOld envelope
      let reencrypted ← ofExcept ((encryptBytes p fastKdf draw plaintext newPassword).mapError .envelope)
      pure (some reencrypted)

end Model

/-! ## What the packages keep to -/

/-- The JSON of an envelope. -/
def envelopeJson (p : EnvelopePrims) (cost : Argon2Cost) (draw : Draw) (ciphertext : Bytes) : Json :=
  .obj
    [("bingle_encrypted", .posInt envelopeMarker), ("kdf", .str "argon2id"),
      ("m", .posInt cost.m.toUInt64), ("t", .posInt cost.t.toUInt64),
      ("p", .posInt cost.p.toUInt64), ("salt", .str (p.b64Encode draw.salt)),
      ("nonce", .str (p.b64Encode draw.nonce.1)),
      ("ciphertext", .str (p.b64Encode ciphertext))]

/-- JSON and base64 are read back as they were written, and a ciphertext decrypts under its key. -/
structure EnvelopeLaws (p : EnvelopePrims) : Prop where
  json : ∀ fastKdf draw ciphertext bytes,
    p.toVecPretty (envelopeJson p (argon2Cost fastKdf) draw ciphertext) = .ok bytes →
    ∃ json, p.fromSlice bytes = .ok json ∧
      ∀ field, json.get field = (envelopeJson p (argon2Cost fastKdf) draw ciphertext).get field
  base64 : ∀ bytes, p.b64Decode (p.b64Encode bytes) = .ok bytes
  aes : ∀ key nonce plaintext ciphertext, p.aesEncrypt key nonce plaintext = .ok ciphertext →
    p.aesDecrypt key nonce ciphertext = some plaintext

/-- What is encrypted under the key of one of the passwords does not decrypt under the key of
another. -/
def Separates (p : EnvelopePrims) (passwords : Set String) : Prop :=
  ∀ pw ∈ passwords, ∀ pw' ∈ passwords, pw' ≠ pw →
    ∀ cost salt key key' nonce plaintext ciphertext,
      p.argon2id cost (utf8 pw) salt = .ok key → p.argon2id cost (utf8 pw') salt = .ok key' →
      p.aesEncrypt key nonce plaintext = .ok ciphertext → p.aesDecrypt key' nonce ciphertext = none

/-- An envelope that was made of `plaintext` under `password`. -/
def SealedUnder (p : EnvelopePrims) (password : String) (plaintext envelope : Bytes) : Prop :=
  ∃ fastKdf draw, encryptBytes p fastKdf draw plaintext password = .ok envelope

section Opening

variable {p : EnvelopePrims} {fastKdf : Bool} {draw : Draw} {plaintext envelope : Bytes}
  {password : String}

/-- The parts of an envelope. -/
theorem encryptBytes_eq_ok (h : encryptBytes p fastKdf draw plaintext password = .ok envelope) :
    ∃ key ciphertext, deriveKeyWith p password draw.salt (argon2Cost fastKdf) = .ok key ∧
      p.aesEncrypt key draw.nonce plaintext = .ok ciphertext ∧
      p.toVecPretty (envelopeJson p (argon2Cost fastKdf) draw ciphertext) = .ok envelope := by
  unfold encryptBytes at h
  rcases hkey : deriveKeyWith p password draw.salt (argon2Cost fastKdf) with e | key
  · simp [hkey, bind, Except.bind] at h
  rcases hcipher : p.aesEncrypt key draw.nonce plaintext with e | ciphertext
  · simp [hkey, hcipher, bind, Except.bind] at h
  refine ⟨key, ciphertext, rfl, hcipher, ?_⟩
  simp only [hkey, hcipher, Fallible.mapError_ok, bind, Except.bind] at h
  rcases hjson : p.toVecPretty (envelopeJson p (argon2Cost fastKdf) draw ciphertext) with e | bytes
  all_goals
    unfold envelopeJson at hjson
    rw [hjson] at h
  · exact absurd h (by simp)
  · exact congrArg Except.ok (Except.ok.inj h)

/-- A derived key is Argon2's. -/
theorem deriveKeyWith_eq_ok {salt : Bytes} {cost : Argon2Cost} {key : Key}
    (h : deriveKeyWith p password salt cost = .ok key) :
    p.argon2id cost (utf8 password) salt = .ok key := by
  unfold deriveKeyWith at h
  rcases hparams : p.argon2Params cost with e | params
  · simp [hparams, bind, Except.bind] at h
  rcases hderived : p.argon2id cost (utf8 password) salt with e | derived
  · simp [hparams, hderived, bind, Except.bind] at h
  · simp only [hparams, hderived, Fallible.mapError_ok, bind, Except.bind] at h
    exact congrArg Except.ok (Except.ok.inj h)

/-- An envelope that was made here is read back: decryption derives a key from the password it is
given, with the cost and the salt of the encryption, and decrypts the ciphertext under it. -/
theorem decryptBytes_of_encrypted (hlaws : EnvelopeLaws p) {ciphertext : Bytes}
    (h : p.toVecPretty (envelopeJson p (argon2Cost fastKdf) draw ciphertext) = .ok envelope)
    (password' : String) :
    decryptBytes p envelope password' = (do
      let key ← deriveKeyWith p password' draw.salt (argon2Cost fastKdf)
      match p.aesDecrypt key draw.nonce ciphertext with
      | some plaintext => .ok plaintext
      | none => .error .decryption) := by
  obtain ⟨json, hread, hget⟩ := hlaws.json fastKdf draw ciphertext envelope h
  have hmark : hasMarker json = true := by
    unfold hasMarker
    rw [hget]
    rfl
  have hcost : envelopeCost json = .ok (argon2Cost fastKdf) := by
    unfold envelopeCost
    rw [hget, hget, hget]
    cases fastKdf <;> rfl
  -- each field is read back as it was written
  have hfield : ∀ field bytes, (envelopeJson p (argon2Cost fastKdf) draw ciphertext).get field
      = some (.str (p.b64Encode bytes)) → decodeField p json field = .ok bytes := by
    intro field bytes hstored
    unfold decodeField
    rw [hget, hstored]
    show (p.b64Decode (p.b64Encode bytes)).mapError _ = _
    rw [hlaws.base64]
    rfl
  have hsalt := hfield "salt" draw.salt rfl
  have hnonce := hfield "nonce" draw.nonce.1 rfl
  have htext := hfield "ciphertext" ciphertext rfl
  unfold decryptBytes
  rw [hread]
  simp only [Fallible.mapError_ok, bind, Except.bind, hmark, hcost, hsalt, hnonce, htext,
    Bool.not_true, Bool.false_eq_true, if_false]
  exact dif_pos draw.nonce.2

/-- An envelope opens under its password to what was put in it. -/
theorem decryptBytes_own (hlaws : EnvelopeLaws p)
    (h : SealedUnder p password plaintext envelope) :
    decryptBytes p envelope password = .ok plaintext := by
  obtain ⟨fastKdf, draw, hencrypted⟩ := h
  obtain ⟨key, ciphertext, hkey, hcipher, hjson⟩ := encryptBytes_eq_ok hencrypted
  rw [decryptBytes_of_encrypted hlaws hjson, hkey]
  simp only [bind, Except.bind, hlaws.aes key draw.nonce plaintext ciphertext hcipher]

/-- Of the passwords in use only its own opens an envelope. -/
theorem password_of_decryptBytes {passwords : Set String} (hlaws : EnvelopeLaws p)
    (hsep : Separates p passwords) (h : SealedUnder p password plaintext envelope)
    (hpassword : password ∈ passwords) {password' : String} (hpassword' : password' ∈ passwords)
    {bytes : Bytes} (hopens : decryptBytes p envelope password' = .ok bytes) :
    password' = password ∧ bytes = plaintext := by
  have hown := decryptBytes_own hlaws h
  obtain ⟨fastKdf, draw, hencrypted⟩ := h
  obtain ⟨key, ciphertext, hkey, hcipher, hjson⟩ := encryptBytes_eq_ok hencrypted
  -- the key of another password in use does not decrypt the ciphertext
  have hsame : password' = password := by
    by_contra hne
    rw [decryptBytes_of_encrypted hlaws hjson] at hopens
    rcases hkey' : deriveKeyWith p password' draw.salt (argon2Cost fastKdf) with e | key'
    · simp [hkey', bind, Except.bind] at hopens
    · have hnone := hsep password hpassword password' hpassword' hne _ _ _ _ draw.nonce plaintext
        ciphertext (deriveKeyWith_eq_ok hkey) (deriveKeyWith_eq_ok hkey') hcipher
      simp [hkey', hnone, bind, Except.bind] at hopens
  subst hsame
  exact ⟨rfl, Except.ok.inj (hopens.symm.trans hown)⟩

end Opening

/-! ## One call -/

section OneCall

variable {κ : Type} {p : EnvelopePrims} {promptOld : Proc κ ReencryptError String} {fastKdf : Bool}
  {draw : Draw} {envelope : Bytes} {newPassword : String}

/-- What opens is an envelope. -/
theorem isEncryptedEnvelope_of_decryptBytes {password : String} {bytes : Bytes}
    (h : decryptBytes p envelope password = .ok bytes) : isEncryptedEnvelope p envelope = true := by
  unfold decryptBytes at h
  unfold isEncryptedEnvelope
  rcases hread : p.fromSlice envelope with e | json
  · simp [hread, bind, Except.bind] at h
  · rcases hmark : hasMarker json
    · simp [hread, hmark, bind, Except.bind] at h
    · exact hmark

/-- The old password is a secret that is asked for and remembered. -/
def Reencryption.ring (s : Reencryption κ) : Keyring String κ := ⟨s.oldPassword, s.caller⟩

theorem oldPlaintext_apply (s : Reencryption κ) :
    oldPlaintext p promptOld envelope s =
      ((unlock (opensOf p envelope) promptOld .oldPassword s.ring).1,
        ⟨(unlock (opensOf p envelope) promptOld .oldPassword s.ring).2.secret,
          (unlock (opensOf p envelope) promptOld .oldPassword s.ring).2.asker⟩) := by
  unfold oldPlaintext
  rw [bind_of_ok (get_apply s)]
  -- the password that is remembered is tried before anybody is asked
  rcases hcached : s.ring.secret.bind (opensOf p envelope) with _ | bytes
  · rw [unlock_of_none hcached]
    have hnone : (s.oldPassword.bind fun pw => (decryptBytes p envelope pw).toOption) = none :=
      hcached
    rw [hnone]
    rcases hask : promptOld s.caller with ⟨pw | e | w, caller⟩
    all_goals
      have hring : promptOld s.ring.asker = promptOld s.caller := rfl
      simp only [hring, hask, bind_apply, askOld]
    · unfold opensOf
      rcases decryptBytes p envelope pw with e | bytes
      · rfl
      · rfl
    · rfl
    · rfl
  · rw [unlock_of_opens hcached]
    have hsome : (s.oldPassword.bind fun pw => (decryptBytes p envelope pw).toOption) = some bytes :=
      hcached
    rw [hsome]
    rfl

end OneCall

/-! ## Sequences of calls -/

/-- One call: the envelope, and the cost and the draw of its new encryption. -/
structure ReencryptCall where
  envelope : Bytes
  fastKdf : Bool
  draw : Draw

/-- A call of `reencryptEnvelope` with a caller who answers from a script. -/
def reencryptCall (p : EnvelopePrims) (answers : ℕ → Outcome String String) (newPassword : String)
    (c : ReencryptCall) : Proc (Reencryption ℕ) ReencryptError (Option Bytes) :=
  reencryptEnvelope p (mapErr .prompt (scripted answers)) c.fastKdf c.draw c.envelope newPassword

/-- What a call of `reencryptEnvelope` keeps to. -/
structure Reencrypted (p : EnvelopePrims) (passwords : Set String) (newPassword : String)
    (c : Call ReencryptCall (Reencryption ℕ) ReencryptError (Option Bytes)) : Prop where
  /-- There is nothing to do exactly where the new password opens the envelope. -/
  already : c.outcome = .ok none ↔ ∃ bytes, decryptBytes p c.arg.envelope newPassword = .ok bytes
  /-- The result opens to what the old password kept now opens the envelope to. -/
  content : ∀ reencrypted, c.outcome = .ok (some reencrypted) → ∃ old bytes,
    c.after.oldPassword = some old ∧ decryptBytes p c.arg.envelope old = .ok bytes ∧
      decryptBytes p reencrypted newPassword = .ok bytes
  /-- That is what the envelope was made of. -/
  own : ∀ reencrypted password plaintext, c.outcome = .ok (some reencrypted) →
    password ∈ passwords → SealedUnder p password plaintext c.arg.envelope →
      decryptBytes p reencrypted newPassword = .ok plaintext
  /-- Somebody is asked at most once, and only where neither password opens the envelope. -/
  asked : c.after.caller = c.before.caller ∨ (c.after.caller = c.before.caller + 1 ∧
    (∀ bytes, decryptBytes p c.arg.envelope newPassword ≠ .ok bytes) ∧
    ∀ old bytes, c.before.oldPassword = some old → decryptBytes p c.arg.envelope old ≠ .ok bytes)
  /-- An error changes nothing that is kept, unless it is one of the new encryption. -/
  failed : ∀ e, c.outcome = .err e → c.after.oldPassword = c.before.oldPassword ∨
    ∃ old bytes e', c.after.oldPassword = some old ∧
      decryptBytes p c.arg.envelope old = .ok bytes ∧
      encryptBytes p c.arg.fastKdf c.arg.draw bytes newPassword = .error e' ∧ e = .envelope e'
  /-- A password that was not kept before opened the envelope. -/
  changed : c.after.oldPassword ≠ c.before.oldPassword → ∃ old bytes,
    c.after.oldPassword = some old ∧ decryptBytes p c.arg.envelope old = .ok bytes

section Runs

variable {p : EnvelopePrims} {passwords : Set String} {answers : ℕ → Outcome String String}
  {newPassword : String}

/-- The passwords in use open only their own envelopes, and include all that are tried. -/
structure InUse (p : EnvelopePrims) (passwords : Set String) (answers : ℕ → Outcome String String)
    (newPassword : String) : Prop where
  separates : Separates p passwords
  new : newPassword ∈ passwords
  answered : ∀ n password, answers n = .ok password → password ∈ passwords

/-- What a call of `reencryptEnvelope` does where the new password does not open the envelope. -/
theorem reencryptCall_apply {arg : ReencryptCall} {e : EnvelopeError}
    (hmark : isEncryptedEnvelope p arg.envelope = true)
    (hnew : decryptBytes p arg.envelope newPassword = .error e) (s : Reencryption ℕ) :
    reencryptCall p answers newPassword arg s =
      (oldPlaintext p (mapErr .prompt (scripted answers)) arg.envelope >>= fun plaintext => do
        let reencrypted ← ofExcept
          ((encryptBytes p arg.fastKdf arg.draw plaintext newPassword).mapError .envelope)
        pure (some reencrypted)) s := by
  unfold reencryptCall reencryptEnvelope
  rw [hmark, hnew]
  rfl

/-- A call that leaves everything as it was, and has nothing to return. -/
theorem reencrypted_of_untouched {c : Call ReencryptCall (Reencryption ℕ) ReencryptError
      (Option Bytes)} (hafter : c.after = c.before)
    (halready : c.outcome = .ok none ↔ ∃ bytes, decryptBytes p c.arg.envelope newPassword = .ok bytes)
    (hnone : ∀ reencrypted, c.outcome ≠ .ok (some reencrypted)) :
    Reencrypted p passwords newPassword c where
  already := halready
  content reencrypted h := absurd h (hnone reencrypted)
  own reencrypted _ _ h := absurd h (hnone reencrypted)
  asked := Or.inl (by rw [hafter])
  failed _ _ := Or.inl (by rw [hafter])
  changed h := absurd (by rw [hafter]) h

/-- One call keeps the discipline where the new password does not open the envelope. -/
theorem reencryptCall_kept_of_closed (hlaws : EnvelopeLaws p)
    (huse : InUse p passwords answers newPassword) (arg : ReencryptCall) {s : Reencryption ℕ}
    (hold : ∀ old, s.oldPassword = some old → old ∈ passwords)
    (hrun : reencryptCall p answers newPassword arg s =
      (oldPlaintext p (mapErr .prompt (scripted answers)) arg.envelope >>= fun plaintext => do
        let reencrypted ← ofExcept
          ((encryptBytes p arg.fastKdf arg.draw plaintext newPassword).mapError .envelope)
        pure (some reencrypted)) s)
    (hclosed : ∀ bytes, decryptBytes p arg.envelope newPassword ≠ .ok bytes) :
    Reencrypted p passwords newPassword (call (reencryptCall p answers newPassword) arg s) ∧
      ∀ old, (call (reencryptCall p answers newPassword) arg s).after.oldPassword = some old →
        old ∈ passwords := by
  -- what is kept and who is asked is decided before the new encryption
  have hkept := unlock_kept (opensOf p arg.envelope) (mapErr ReencryptError.prompt
    (scripted answers)) .oldPassword s.ring
  have hanswer : ∀ password, (mapErr ReencryptError.prompt (scripted answers) s.ring.asker).1
      = .ok password → password ∈ passwords := by
    intro password h
    rw [mapErr_apply] at h
    rcases hscript : scripted answers s.ring.asker with ⟨pw | e | w, n⟩
    · have hpw : answers s.ring.asker = .ok pw := congrArg Prod.fst hscript
      have hsame : pw = password := by simpa [hscript] using h
      exact huse.answered _ _ (hsame ▸ hpw)
    · simp [hscript] at h
    · simp [hscript] at h
  have hnext : (mapErr ReencryptError.prompt (scripted answers) s.ring.asker).2 = s.caller + 1 :=
    mapErr_snd _ _ _
  have hfound : oldPlaintext p (mapErr .prompt (scripted answers)) arg.envelope s = _ :=
    oldPlaintext_apply s
  rcases hunlock : unlock (opensOf p arg.envelope) (mapErr ReencryptError.prompt
    (scripted answers)) .oldPassword s.ring with ⟨o, r⟩
  rw [hunlock] at hkept hfound
  have hinUse : ∀ old, r.secret = some old → old ∈ passwords := by
    intro old hsecret
    rcases hkept.learnt with hsame | ⟨password, hasked, hlearnt⟩
    · exact hold old (hsame.symm.trans hsecret)
    · rw [Option.some.inj (hsecret.symm.trans hlearnt)]
      exact hanswer password hasked
  have hasked : r.asker = s.caller ∨ (r.asker = s.caller + 1 ∧
      (∀ bytes, decryptBytes p arg.envelope newPassword ≠ .ok bytes) ∧
      ∀ old bytes, s.oldPassword = some old → decryptBytes p arg.envelope old ≠ .ok bytes) := by
    rcases hkept.asked with hsame | ⟨hasked, hnone⟩
    · exact Or.inl hsame
    · refine Or.inr ⟨hasked.trans hnext, hclosed, fun old bytes hsecret hopens => ?_⟩
      have hbind : s.ring.secret.bind (opensOf p arg.envelope) = some bytes := by
        rw [show s.ring.secret = some old from hsecret, Option.bind_some]
        exact opensOf_eq_some.mpr hopens
      rw [hbind] at hnone
      exact absurd hnone (by simp)
  have hnotNone : ∀ o' : Outcome ReencryptError (Option Bytes), o' ≠ .ok none →
      (o' = .ok none ↔ ∃ bytes, decryptBytes p arg.envelope newPassword = .ok bytes) :=
    fun o' h => iff_of_false h fun ⟨bytes, hopens⟩ => hclosed bytes hopens
  unfold call
  rcases o with plaintext | e | w
  · obtain ⟨old, hsecret, hopens⟩ := hkept.opened plaintext rfl
    rw [opensOf_eq_some] at hopens
    rcases hnew : encryptBytes p arg.fastKdf arg.draw plaintext newPassword with e' | reencrypted
    · -- the new encryption fails after the old password was found
      have hrun' : reencryptCall p answers newPassword arg s
          = (.err (.envelope e'), ⟨r.secret, r.asker⟩) := by
        rw [hrun, bind_of_ok hfound, hnew]
        rfl
      rw [hrun']
      refine ⟨⟨hnotNone _ (by simp), by simp, by simp, hasked, fun e he => ?_,
        fun _ => ⟨old, plaintext, hsecret, hopens⟩⟩, hinUse⟩
      exact Or.inr ⟨old, plaintext, e', hsecret, hopens, hnew, (Outcome.err.inj he).symm⟩
    · have hrun' : reencryptCall p answers newPassword arg s
          = (.ok (some reencrypted), ⟨r.secret, r.asker⟩) := by
        rw [hrun, bind_of_ok hfound, hnew]
        rfl
      have hsealed : SealedUnder p newPassword plaintext reencrypted := ⟨_, _, hnew⟩
      rw [hrun']
      refine ⟨⟨hnotNone _ (by simp), fun result h => ?_, fun result password content h hpw hsrc => ?_,
        hasked, by simp, fun _ => ⟨old, plaintext, hsecret, hopens⟩⟩, hinUse⟩
      · obtain rfl : reencrypted = result := by simpa using h
        exact ⟨old, plaintext, hsecret, hopens, decryptBytes_own hlaws hsealed⟩
      · obtain rfl : reencrypted = result := by simpa using h
        obtain ⟨-, rfl⟩ := password_of_decryptBytes hlaws huse.separates hsrc hpw
          (hinUse old hsecret) hopens
        exact decryptBytes_own hlaws hsealed
  · have hsame : r.secret = s.oldPassword := hkept.failed (by simp)
    have hrun' : reencryptCall p answers newPassword arg s = (.err e, ⟨r.secret, r.asker⟩) :=
      hrun.trans (bind_of_err hfound)
    rw [hrun']
    exact ⟨⟨hnotNone _ (by simp), by simp, by simp, hasked, fun _ _ => Or.inl hsame,
      fun h => absurd hsame h⟩, hinUse⟩
  · have hsame : r.secret = s.oldPassword := hkept.failed (by simp)
    have hrun' : reencryptCall p answers newPassword arg s = (.stop w, ⟨r.secret, r.asker⟩) :=
      hrun.trans (bind_of_stop hfound)
    rw [hrun']
    exact ⟨⟨hnotNone _ (by simp), by simp, by simp, hasked, fun _ _ => Or.inl hsame,
      fun h => absurd hsame h⟩, hinUse⟩

/-- One call keeps the discipline, and its old password is one of those in use. -/
theorem reencryptCall_kept (hlaws : EnvelopeLaws p)
    (huse : InUse p passwords answers newPassword) (arg : ReencryptCall) {s : Reencryption ℕ}
    (hold : ∀ old, s.oldPassword = some old → old ∈ passwords) :
    Reencrypted p passwords newPassword (call (reencryptCall p answers newPassword) arg s) ∧
      ∀ old, (call (reencryptCall p answers newPassword) arg s).after.oldPassword = some old →
        old ∈ passwords := by
  rcases hmark : isEncryptedEnvelope p arg.envelope
  · have hrun : reencryptCall p answers newPassword arg s = (.err (.envelope .notEnvelope), s) := by
      unfold reencryptCall reencryptEnvelope
      rw [hmark]
      rfl
    have hclosed : ∀ bytes, decryptBytes p arg.envelope newPassword ≠ .ok bytes := by
      intro bytes h
      rw [isEncryptedEnvelope_of_decryptBytes h] at hmark
      exact absurd hmark (by simp)
    unfold call
    rw [hrun]
    exact ⟨reencrypted_of_untouched rfl (iff_of_false (by simp) fun ⟨bytes, h⟩ => hclosed bytes h)
      (by simp), hold⟩
  rcases hnew : decryptBytes p arg.envelope newPassword with e | bytes
  · have hclosed : ∀ bytes, decryptBytes p arg.envelope newPassword ≠ .ok bytes := by
      rw [hnew]
      simp
    exact reencryptCall_kept_of_closed hlaws huse arg hold
      (reencryptCall_apply hmark hnew s) hclosed
  · have hrun : reencryptCall p answers newPassword arg s = (.ok none, s) := by
      unfold reencryptCall reencryptEnvelope
      rw [hmark, hnew]
      rfl
    unfold call
    rw [hrun]
    exact ⟨reencrypted_of_untouched rfl (iff_of_true rfl ⟨bytes, hnew⟩) (by simp), hold⟩

/-- The envelope of a call opens under `password`. -/
def EnvelopeOpened (p : EnvelopePrims)
    (c : Call ReencryptCall (Reencryption ℕ) ReencryptError (Option Bytes)) (password : String) :
    Prop :=
  ∃ bytes, decryptBytes p c.arg.envelope password = .ok bytes

/-- A password is changed, over any sequence of envelopes and whatever the caller answers. Each call
returns nothing exactly where the new password opens the envelope, and otherwise an envelope that
opens under it to what the old one was made of; it asks at most once, and not at all where one of
the passwords opens the envelope; and an error leaves the old password as it was, except one of
the new encryption. The old password is the given one or has opened an envelope of the sequence. -/
theorem reencryptions_kept (p : EnvelopePrims) (passwords : Set String)
    (answers : ℕ → Outcome String String) (newPassword : String) (hlaws : EnvelopeLaws p)
    (huse : InUse p passwords answers newPassword) (old : Option String)
    (hold : ∀ password, old = some password → password ∈ passwords) (asked : ℕ)
    (args : List ReencryptCall) :
    (∀ c ∈ calls (reencryptCall p answers newPassword) args ⟨old, asked⟩,
      Reencrypted p passwords newPassword c) ∧
    ∀ pre c post, calls (reencryptCall p answers newPassword) args ⟨old, asked⟩ = pre ++ c :: post →
      ∀ password, c.after.oldPassword = some password →
        old = some password ∨ ∃ c' ∈ pre ++ [c], EnvelopeOpened p c' password := by
  -- along the sequence the old password is one of those in use, and given or found
  have hhistory : ∀ {pre post c},
      calls (reencryptCall p answers newPassword) args ⟨old, asked⟩ = pre ++ c :: post →
      (∀ c' ∈ pre ++ [c], Reencrypted p passwords newPassword c') ∧
      (∀ password, c.after.oldPassword = some password → password ∈ passwords) ∧
      ∀ password, c.after.oldPassword = some password →
        old = some password ∨ ∃ c' ∈ pre ++ [c], EnvelopeOpened p c' password := by
    refine calls_history (I := fun past s =>
      (∀ c' ∈ past, Reencrypted p passwords newPassword c') ∧
      (∀ password, s.oldPassword = some password → password ∈ passwords) ∧
      ∀ password, s.oldPassword = some password →
        old = some password ∨ ∃ c' ∈ past, EnvelopeOpened p c' password) ?_ []
      ⟨by simp, hold, fun password h => Or.inl h⟩
    rintro past arg s ⟨hpast, hinUse, hopened⟩
    obtain ⟨hkept, hinUse'⟩ := reencryptCall_kept hlaws huse arg hinUse
    refine ⟨fun c' hc' => ?_, hinUse', fun password hpassword => ?_⟩
    · rcases List.mem_append.mp hc' with hc' | hc'
      · exact hpast c' hc'
      · rw [List.mem_singleton.mp hc']
        exact hkept
    · by_cases hsame : (call (reencryptCall p answers newPassword) arg s).after.oldPassword
          = s.oldPassword
      · rw [hsame] at hpassword
        refine (hopened password hpassword).imp id ?_
        rintro ⟨c', hc', hopens⟩
        exact ⟨c', List.mem_append_left _ hc', hopens⟩
      · obtain ⟨old', bytes, hold', hopens⟩ := hkept.changed hsame
        obtain rfl := Option.some.inj (hpassword.symm.trans hold')
        exact Or.inr ⟨_, List.mem_append_right _ (List.mem_singleton_self _), bytes, hopens⟩
  refine ⟨fun c hc => ?_, fun pre c post h => (hhistory h).2.2⟩
  obtain ⟨pre, post, hsplit⟩ := List.append_of_mem hc
  exact (hhistory hsplit).1 c (List.mem_append_right _ (List.mem_singleton_self c))

end Runs

/-! ## Two envelopes -/

/-- The bytes that a field of the stand-in JSON holds. -/
def sampleField (json : Json) (field : String) : Bytes :=
  sampleBytes (((json.get field).bind Json.asStr).getD "")

/-- The longest password Argon2 takes. -/
def maxPwdLen : ℕ := 0xFFFFFFFF

/-- The stand-in key derivation, for passwords that Argon2 takes. -/
def boundedKey (password : Bytes) : Except String Key :=
  if password.length ≤ maxPwdLen then .ok (sampleKey password) else .error "password is too long"

/-- Small stand-ins for the other packages. An envelope is a brace, whether its cost is the fast one,
its salt, its nonce and its ciphertext. -/
def rekeyPrims : EnvelopePrims :=
  { samplePrims with
    fromSlice := fun bytes =>
      match bytes with
      | 0x7B :: fast :: rest =>
        let cost := argon2Cost (fast = 1)
        .ok (.obj
          [("bingle_encrypted", .posInt envelopeMarker), ("kdf", .str "argon2id"),
            ("m", .posInt cost.m.toUInt64), ("t", .posInt cost.t.toUInt64),
            ("p", .posInt cost.p.toUInt64), ("salt", .str (sampleText (rest.take saltLen))),
            ("nonce", .str (sampleText ((rest.drop saltLen).take nonceLen))),
            ("ciphertext", .str (sampleText ((rest.drop saltLen).drop nonceLen)))])
      | _ => .error "expected value"
    toVecPretty := fun json =>
      .ok (0x7B :: (if (json.get "m").bind Json.asU64 = some 8 then 1 else 0) ::
        (sampleField json "salt" ++ (sampleField json "nonce" ++ sampleField json "ciphertext")))
    argon2id := fun _ password _ => boundedKey password }

theorem envelopeLaws_rekeyPrims : EnvelopeLaws rekeyPrims where
  json fastKdf draw ciphertext bytes h := by
    refine ⟨envelopeJson rekeyPrims (argon2Cost fastKdf) draw ciphertext, ?_, fun _ => rfl⟩
    have hwritten : rekeyPrims.toVecPretty (envelopeJson rekeyPrims (argon2Cost fastKdf) draw
        ciphertext) = .ok (0x7B ::
          (if some (argon2Cost fastKdf).m.toUInt64 = some (8 : UInt64) then 1 else 0) ::
          (sampleBytes (sampleText draw.salt) ++ (sampleBytes (sampleText draw.nonce.1) ++
            sampleBytes (sampleText ciphertext)))) := rfl
    have hflag : (if some (argon2Cost fastKdf).m.toUInt64 = some (8 : UInt64) then 1 else 0)
        = (if fastKdf then 1 else 0 : UInt8) := by
      cases fastKdf <;> decide
    rw [hwritten, hflag, sampleBytes_sampleText, sampleBytes_sampleText, sampleBytes_sampleText,
      Except.ok.injEq] at h
    have hafter : (draw.salt ++ (draw.nonce.1 ++ ciphertext)).drop saltLen
        = draw.nonce.1 ++ ciphertext := List.drop_left' draw.salt_length
    have hcost : argon2Cost ((if fastKdf then (1 : UInt8) else 0) = 1) = argon2Cost fastKdf := by
      cases fastKdf <;> decide
    rw [← h]
    simp only [rekeyPrims, envelopeJson, hafter, hcost, List.take_left' draw.salt_length,
      List.take_left' draw.nonce.2, List.drop_left' draw.nonce.2]
    rfl
  base64 bytes := congrArg Except.ok (sampleBytes_sampleText bytes)
  aes key nonce plaintext ciphertext h := (aesRoundTrip_sample key nonce plaintext ciphertext h).1

theorem boundedKey_eq_ok {password : Bytes} {key : Key} (h : boundedKey password = .ok key) :
    password.length ≤ maxPwdLen ∧ sampleKey password = key := by
  unfold boundedKey at h
  split_ifs at h with hshort
  exact ⟨hshort, Except.ok.inj h⟩

/-- A stand-in ciphertext decrypts only under a key with the same first half. -/
theorem separates_rekeyPrims {passwords : Set String}
    (h : ∀ pw ∈ passwords, ∀ pw' ∈ passwords, pw' ≠ pw → (utf8 pw).length ≤ maxPwdLen →
      (utf8 pw').length ≤ maxPwdLen →
      (sampleKey (utf8 pw)).1.take 16 ≠ (sampleKey (utf8 pw')).1.take 16) :
    Separates rekeyPrims passwords := by
  intro pw hpw pw' hpw' hne cost salt key key' nonce plaintext ciphertext hkey hkey' hcipher
  obtain ⟨hshort, rfl⟩ := boundedKey_eq_ok hkey
  obtain ⟨hshort', rfl⟩ := boundedKey_eq_ok hkey'
  have htag : ((sampleKey (utf8 pw)).1.take 16).length = 16 := by
    rw [List.length_take, (sampleKey (utf8 pw)).2]
    rfl
  have hparts : (sampleKey (utf8 pw)).1.take 16 ++ plaintext = ciphertext := Except.ok.inj hcipher
  subst hparts
  have hother : ((sampleKey (utf8 pw)).1.take 16 ++ plaintext).take 16
      ≠ (sampleKey (utf8 pw')).1.take 16 := by
    rw [List.take_left' htag]
    exact h pw hpw pw' hpw' hne hshort hshort'
  exact if_neg hother

/-- An envelope of `content` under "old". -/
def oldEnvelope (content : Bytes) : Bytes :=
  0x7B :: 1 :: (sampleDraw.salt ++ (sampleDraw.nonce.1 ++
    ((sampleKey (utf8 "old")).1.take 16 ++ content)))

theorem sealedUnder_oldEnvelope : SealedUnder rekeyPrims "old" [7] (oldEnvelope [7]) ∧
    SealedUnder rekeyPrims "old" [8] (oldEnvelope [8]) :=
  ⟨⟨true, sampleDraw, by decide⟩, ⟨true, sampleDraw, by decide⟩⟩

/-- Two envelopes under "old" are moved to "new"; the caller is asked once. -/
theorem reencryptions_kept_two :
    let run := calls (reencryptCall rekeyPrims (fun _ => .ok "old") "new")
      [⟨oldEnvelope [7], true, sampleDraw⟩, ⟨oldEnvelope [8], true, sampleDraw⟩] ⟨none, 0⟩
    (run.map fun c => c.after.oldPassword) = [some "old", some "old"] ∧
    (run.map fun c => c.after.caller) = [1, 1] ∧
    ∀ c ∈ run, Reencrypted rekeyPrims {"old", "new"} "new" c := by
  intro run
  have hsep : Separates rekeyPrims {"old", "new"} := by
    refine separates_rekeyPrims fun pw hpw pw' hpw' hne _ _ => ?_
    rcases hpw with rfl | rfl <;> rcases hpw' with rfl | rfl
    · exact absurd rfl hne
    · decide
    · decide
    · exact absurd rfl hne
  refine ⟨by decide, by decide, ?_⟩
  exact (reencryptions_kept rekeyPrims {"old", "new"} (fun _ => .ok "old") "new"
    envelopeLaws_rekeyPrims ⟨hsep, by simp, by simp⟩ none (by simp) 0 _).1

/-- `n` times the letter a. -/
def longPassword (n : ℕ) : String := String.ofList (List.replicate n 'a')

theorem length_utf8_longPassword (n : ℕ) : (utf8 (longPassword n)).length = n := by
  induction n with
  | zero => rfl
  | succ n ih =>
    have hcons : longPassword (n + 1) = longPassword 1 ++ longPassword n := by
      unfold longPassword
      rw [← String.ofList_append, List.replicate_append_replicate, Nat.add_comm]
    have hone : (utf8 (longPassword 1)).length = 1 := by decide
    rw [hcons, utf8_append, List.length_append, hone, ih, Nat.add_comm]

/-- No key is derived from a password that Argon2 does not take. -/
theorem deriveKeyWith_longPassword {n : ℕ} (hn : maxPwdLen < n) (salt : Bytes) (cost : Argon2Cost) :
    deriveKeyWith rekeyPrims (longPassword n) salt cost
      = .error (.derivation "password is too long") := by
  have hlong : boundedKey (utf8 (longPassword n)) = .error "password is too long" := by
    unfold boundedKey
    rw [length_utf8_longPassword, if_neg (by omega)]
  show (boundedKey (utf8 (longPassword n))).mapError EnvelopeError.derivation = _
  rw [hlong]
  rfl

theorem encryptBytes_of_underived {p : EnvelopePrims} {fastKdf : Bool} {draw : Draw}
    {plaintext : Bytes} {password : String} {e : EnvelopeError}
    (h : deriveKeyWith p password draw.salt (argon2Cost fastKdf) = .error e) :
    encryptBytes p fastKdf draw plaintext password = .error e := by
  unfold encryptBytes
  simp only [h, bind, Except.bind]

/-- An answer that opens the envelope is kept where the new password is too long to encrypt. -/
theorem reencryptCall_longPassword {n : ℕ} (hn : maxPwdLen < n) :
    reencryptCall rekeyPrims (fun _ => .ok "old") (longPassword n)
      ⟨oldEnvelope [7], true, sampleDraw⟩ ⟨none, 0⟩
      = (.err (.envelope (.derivation "password is too long")), ⟨some "old", 1⟩) := by
  have hderive := deriveKeyWith_longPassword hn
  have hold : encryptBytes rekeyPrims true sampleDraw [7] "old" = .ok (oldEnvelope [7]) := by decide
  obtain ⟨key, ciphertext, -, -, hjson⟩ := encryptBytes_eq_ok hold
  have hclosed : decryptBytes rekeyPrims (oldEnvelope [7]) (longPassword n)
      = .error (.derivation "password is too long") := by
    rw [decryptBytes_of_encrypted envelopeLaws_rekeyPrims hjson, hderive]
    rfl
  have hrun : reencryptCall rekeyPrims (fun _ => .ok "old") (longPassword n)
      ⟨oldEnvelope [7], true, sampleDraw⟩ ⟨none, 0⟩ = _ :=
    reencryptCall_apply (by decide) hclosed ⟨none, 0⟩
  have hfound : oldPlaintext rekeyPrims (mapErr .prompt (scripted fun _ => .ok "old"))
      (oldEnvelope [7]) ⟨none, 0⟩ = (.ok [7], ⟨some "old", 1⟩) := by decide
  have hencrypt : encryptBytes rekeyPrims true sampleDraw [7] (longPassword n)
      = .error (.derivation "password is too long") := encryptBytes_of_underived (hderive _ _)
  rw [hrun, bind_of_ok hfound]
  simp only [hencrypt]
  rfl

theorem separates_longPassword {n : ℕ} (hn : maxPwdLen < n) :
    Separates rekeyPrims {"old", longPassword n} := by
  have hold : ∀ password ∈ ({"old", longPassword n} : Set String),
      (utf8 password).length ≤ maxPwdLen → password = "old" := by
    rintro password (rfl | rfl) hlen
    · rfl
    · rw [length_utf8_longPassword] at hlen
      omega
  refine separates_rekeyPrims fun pw hpw pw' hpw' hne hshort hshort' => ?_
  exact absurd ((hold pw' hpw' hshort').trans (hold pw hpw hshort).symm) hne

/-- The caller's answer opens the envelope, and the new password is one byte too long for Argon2: the
call fails, and the answer is kept. -/
theorem reencrypt_error_keeps_answer :
    let c := call (reencryptCall rekeyPrims (fun _ => .ok "old") (longPassword 0x100000000))
      ⟨oldEnvelope [7], true, sampleDraw⟩ ⟨none, 0⟩
    c.outcome = .err (.envelope (.derivation "password is too long")) ∧
    c.before.oldPassword = none ∧ c.after.oldPassword = some "old" ∧
    EnvelopeLaws rekeyPrims ∧ Separates rekeyPrims {"old", longPassword 0x100000000} ∧
    SealedUnder rekeyPrims "old" [7] (oldEnvelope [7]) := by
  have hlong : maxPwdLen < 0x100000000 := by decide
  unfold call
  rw [reencryptCall_longPassword hlong]
  exact ⟨rfl, rfl, rfl, envelopeLaws_rekeyPrims, separates_longPassword hlong,
    sealedUnder_oldEnvelope.1⟩

end BlockchainOps.AccountVault
