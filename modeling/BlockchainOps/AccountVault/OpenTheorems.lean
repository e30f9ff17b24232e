import BlockchainOps.Lib.Fallible
import BlockchainOps.Lib.Keyring
import BlockchainOps.AccountVault.AccountDir
import BlockchainOps.AccountVault.DiscoveryTheorems
import BlockchainOps.AccountVault.Print

/-!
# The password a vault holds opened a file

`Vault.open` and `AccountDir.readBytes` are both `Keyring.retrieve` on what is found at the two
paths of a key file (`foundAt`), with the password as the secret. So both keep its discipline, over
every sequence of calls, and a directory reads as the vault opens.
-/

namespace BlockchainOps.AccountVault

open Effect Proc Storage Keyring Fallible

/-! ## What is found -/

/-- What an envelope opens to under each password. -/
def opensOf (p : EnvelopePrims) (envelope : Bytes) (password : String) : Option Bytes :=
  (decryptBytes p envelope password).toOption

theorem opensOf_eq_some {p : EnvelopePrims} {envelope bytes : Bytes} {password : String} :
    opensOf p envelope password = some bytes ↔ decryptBytes p envelope password = .ok bytes := by
  unfold opensOf
  rcases decryptBytes p envelope password with e | b <;> simp [Except.toOption]

/-- What is found of a key file at its two paths. -/
def foundAt (p : EnvelopePrims) (d : VaultDisk) (f : Fault) (plain sealedPath : Path) :
    Outcome Unit (Found String Bytes) :=
  if d.pathExists plain then
    (readFile f plain d).1.eraseErr.map fun bytes =>
      if isEncryptedEnvelope p bytes then .locked (opensOf p bytes) else .plain bytes
  else if d.pathExists sealedPath then
    (readFile f sealedPath d).1.eraseErr.map fun bytes => .locked (opensOf p bytes)
  else .err ()

/-- The bytes that stand for a key file: the plaintext form's, where that is there. -/
def storedForm (d : VaultDisk) (file : KeyFile) : Option Bytes :=
  match d.node file.plain with
  | some (.file content) => some content
  | some .dir => none
  | none =>
    match d.node file.sealedPath with
    | some (.file content) => some content
    | _ => none

/-- A file in the clear stands at the plaintext path. -/
def IsPlainFile (p : EnvelopePrims) (d : VaultDisk) (file : KeyFile) : Prop :=
  ∃ content, d.node file.plain = some (.file content) ∧ isEncryptedEnvelope p content = false

/-- A locked find is what is stored, and a plain one a file in the clear. -/
theorem foundAt_locked {p : EnvelopePrims} {d : VaultDisk} {f : Fault} {file : KeyFile}
    {opens : String → Option Bytes}
    (h : foundAt p d f file.plain file.sealedPath = .ok (.locked opens)) :
    ∃ content, storedForm d file = some content ∧ opens = opensOf p content ∧
      ¬ IsPlainFile p d file := by
  have hread : ∀ {path : Path} {content : Bytes}, (readFile f path d).1.eraseErr = .ok content →
      d.node path = some (.file content) := by
    intro path content hcontent
    have hends := readFile_triple f path d d rfl
    rcases hrun : readFile f path d with ⟨c | e | w, d'⟩
    · rw [hrun] at hcontent hends
      rw [← show c = content from Outcome.ok.inj hcontent]
      exact hends.2.2
    all_goals
      rw [hrun] at hcontent
      exact absurd hcontent (by simp [Outcome.eraseErr])
  unfold foundAt at h
  split_ifs at h with hplain hsealed
  · obtain ⟨content, hcontent, hopens⟩ := Outcome.map_eq_ok.mp h
    have hnode := hread hcontent
    split_ifs at hopens with hmark
    refine ⟨content, by rw [storedForm, hnode], (Found.locked.inj hopens).symm, ?_⟩
    rintro ⟨content', hnode', hclear⟩
    rw [hnode, Option.some.injEq, Node.file.injEq] at hnode'
    rw [← hnode', hmark] at hclear
    exact absurd hclear (by simp)
  · obtain ⟨content, hcontent, hopens⟩ := Outcome.map_eq_ok.mp h
    have hnone : d.node file.plain = none := pathExists_eq_false.mp (by simpa using hplain)
    refine ⟨content, by rw [storedForm, hnone, hread hcontent], (Found.locked.inj hopens).symm, ?_⟩
    rintro ⟨content', hnode', -⟩
    exact absurd (hnone.symm.trans hnode') (by simp)

theorem foundAt_plain {p : EnvelopePrims} {d : VaultDisk} {f : Fault} {file : KeyFile}
    {bytes : Bytes} (h : foundAt p d f file.plain file.sealedPath = .ok (.plain bytes)) :
    d.node file.plain = some (.file bytes) ∧ isEncryptedEnvelope p bytes = false := by
  unfold foundAt at h
  split_ifs at h with hplain hsealed
  · obtain ⟨content, hcontent, hopens⟩ := Outcome.map_eq_ok.mp h
    split_ifs at hopens with hmark
    have hends := readFile_triple f file.plain d d rfl
    rcases hrun : readFile f file.plain d with ⟨c | e | w, d'⟩
    · rw [hrun] at hcontent hends
      have hc : c = content := Outcome.ok.inj hcontent
      rw [← Found.plain.inj hopens, ← hc]
      rw [← hc] at hmark
      exact ⟨hends.2.2, by simpa using hmark⟩
    all_goals
      rw [hrun] at hcontent
      exact absurd hcontent (by simp [Outcome.eraseErr])
  · obtain ⟨content, -, hopens⟩ := Outcome.map_eq_ok.mp h
    exact absurd hopens (by simp)

/-! ## Both readers are retrievals -/

/-- A read with its error rewritten leaves the disk as it is. -/
theorem forget_read {ε : Type} (e : IoError → ε) (f : Fault) (path : Path) (d : VaultDisk) :
    forget (mapErr e (readFile f path)) d = ((readFile f path d).1.eraseErr, d) := by
  have hsame : d = (readFile f path d).2 := readFile_respects f path d
  rw [forget_mapErr, forget_apply, ← hsame]

section Vault

variable {κ : Type}

/-- The vault and its caller. -/
def Session.ring (s : Session κ) : Keyring String κ := ⟨s.vault.password, s.caller⟩

def Session.withRing (s : Session κ) (r : Keyring String κ) : Session κ :=
  ⟨⟨r.secret⟩, r.asker, s.disk⟩

theorem forget_sessionRead (e : IoError → VaultError) (f : Fault) (path : Path) (s : Session κ) :
    forget (Session.onDisk (mapErr e (readFile f path))) s
      = ((readFile f path s.disk).1.eraseErr, s) := by
  show ((forget (mapErr e (readFile f path)) s.disk).1,
    { s with disk := (forget (mapErr e (readFile f path)) s.disk).2 }) = _
  rw [forget_read]

variable (p : EnvelopePrims) (prompt : Proc κ VaultError String)

theorem forget_vaultDecrypt (path : Path) (envelope : Bytes) (s : Session κ) :
    forget (Vault.decrypt p prompt path envelope) s =
      ((unlock (opensOf p envelope) (forget prompt) () s.ring).1.map fun bytes => ⟨bytes, true⟩,
        s.withRing (unlock (opensOf p envelope) (forget prompt) () s.ring).2) := by
  rw [forget_apply]
  unfold Vault.decrypt
  rw [bind_of_ok (get_apply s)]
  rcases hcached : s.vault.password.bind (opensOf p envelope) with _ | bytes
  · rw [unlock_of_none (r := s.ring) hcached, forget_apply]
    rw [show (s.vault.password.bind fun password => (decryptBytes p envelope password).toOption)
      = none from hcached]
    simp only [Session.ring, bind_apply, Session.onCaller]
    rcases prompt s.caller with ⟨password | e | w, caller⟩
    · simp only [Outcome.eraseErr, opensOf]
      rcases decryptBytes p envelope password with e | bytes <;> rfl
    · rfl
    · rfl
  · rw [unlock_of_opens (r := s.ring) hcached]
    rw [show (s.vault.password.bind fun password => (decryptBytes p envelope password).toOption)
      = some bytes from hcached]
    rfl

/-- `Vault.open` retrieves what is found at the two paths. -/
theorem forget_vaultOpen (f : Fault) (file : KeyFile) (s : Session κ) :
    forget (Vault.open p prompt f file) s =
      ((retrieve (foundAt p s.disk f file.plain file.sealedPath) (forget prompt) () s.ring).1.map
          fun a => ⟨a.1, a.2⟩,
        s.withRing (retrieve (foundAt p s.disk f file.plain file.sealedPath) (forget prompt) ()
          s.ring).2) := by
  have hdecrypt : ∀ (path : Path) (bytes : Bytes), forget (Vault.decrypt p prompt path bytes) s =
      ((retrieve (.ok (.locked (opensOf p bytes))) (forget prompt) () s.ring).1.map
        fun a => ⟨a.1, a.2⟩,
        s.withRing (retrieve (.ok (.locked (opensOf p bytes))) (forget prompt) () s.ring).2) := by
    intro path bytes
    rw [retrieve_locked, forget_vaultDecrypt]
    rcases unlock (opensOf p bytes) (forget prompt) () s.ring with ⟨_ | _ | _, _⟩ <;> rfl
  rw [forget_apply]
  unfold Vault.open foundAt
  rw [bind_of_ok (get_apply s)]
  split_ifs with hplain hsealed
  · refine forget_find (forget_sessionRead _ f file.plain s) rfl fun bytes => ?_
    split_ifs with hmark
    · exact hdecrypt file.plain bytes
    · rfl
  · exact forget_find (forget_sessionRead _ f file.sealedPath s) rfl fun bytes =>
      hdecrypt file.sealedPath bytes
  · rfl

/-- What is returned was sealed, and opens under the password the vault holds now; or it is a file
in the clear, and the vault is as it was. -/
theorem vaultOpen_ok {f : Fault} {file : KeyFile} {s s' : Session κ} {opened : Opened}
    (h : Vault.open p prompt f file s = (.ok opened, s')) :
    s'.disk = s.disk ∧
      ((opened.wasSealed = true ∧ ∃ content password, storedForm s.disk file = some content ∧
          s'.vault.password = some password ∧
          decryptBytes p content password = .ok opened.bytes) ∨
        (opened.wasSealed = false ∧ storedForm s.disk file = some opened.bytes ∧
          IsPlainFile p s.disk file ∧ s'.vault = s.vault)) := by
  have hrun := forget_vaultOpen p prompt f file s
  rw [forget_apply, h] at hrun
  obtain ⟨houtcome, hafter⟩ := Prod.ext_iff.mp hrun
  have hkept := retrieve_kept (foundAt p s.disk f file.plain file.sealedPath) (forget prompt) ()
    s.ring
  obtain ⟨⟨bytes, wasSealed⟩, ha, rfl⟩ := Outcome.map_eq_ok.mp houtcome.symm
  have hs' : s' = s.withRing _ := hafter
  rw [hs']
  refine ⟨rfl, ?_⟩
  rcases wasSealed with _ | _
  · obtain ⟨hfound, hsame⟩ := hkept.plain bytes ha
    obtain ⟨hnode, hclear⟩ := foundAt_plain hfound
    refine Or.inr ⟨rfl, by rw [storedForm, hnode], ⟨bytes, hnode, hclear⟩, ?_⟩
    rw [hsame]
    rfl
  · obtain ⟨opens, password, hfound, hsecret, hopens⟩ := hkept.opened bytes ha
    obtain ⟨content, hstored, rfl, -⟩ := foundAt_locked hfound
    exact Or.inl ⟨rfl, content, password, hstored, hsecret, opensOf_eq_some.mp hopens⟩

end Vault

section Directory

variable {κ : Type}

/-- The cached password and its caller. -/
def AccountSession.ring (s : AccountSession κ) : Keyring String κ :=
  ⟨s.accounts.cachedPassword, s.caller⟩

def AccountSession.withRing (s : AccountSession κ) (r : Keyring String κ) : AccountSession κ :=
  ⟨⟨s.accounts.dir, r.secret⟩, r.asker, s.disk⟩

theorem forget_accountRead (e : IoError → AccountError) (f : Fault) (path : Path)
    (s : AccountSession κ) :
    forget (AccountSession.onDisk (mapErr e (readFile f path))) s
      = ((readFile f path s.disk).1.eraseErr, s) := by
  show ((forget (mapErr e (readFile f path)) s.disk).1,
    { s with disk := (forget (mapErr e (readFile f path)) s.disk).2 }) = _
  rw [forget_read]

variable (p : EnvelopePrims) (prompt : Proc κ AccountError String)

theorem forget_accountDecrypt (name : String) (envelope : Bytes) (s : AccountSession κ) :
    forget (AccountDir.decrypt p prompt name envelope) s =
      ((unlock (opensOf p envelope) (forget prompt) () s.ring).1,
        s.withRing (unlock (opensOf p envelope) (forget prompt) () s.ring).2) := by
  rw [forget_apply]
  unfold AccountDir.decrypt
  rw [bind_of_ok (get_apply s)]
  rcases hcached : s.accounts.cachedPassword.bind (opensOf p envelope) with _ | bytes
  · rw [unlock_of_none (r := s.ring) hcached, forget_apply]
    rw [show (s.accounts.cachedPassword.bind fun pw => (decryptBytes p envelope pw).toOption)
      = none from hcached]
    simp only [AccountSession.ring, bind_apply, AccountSession.onCaller]
    rcases prompt s.caller with ⟨password | e | w, caller⟩
    · simp only [Outcome.eraseErr, opensOf]
      rcases decryptBytes p envelope password with e | bytes <;> rfl
    · rfl
    · rfl
  · rw [unlock_of_opens (r := s.ring) hcached]
    rw [show (s.accounts.cachedPassword.bind fun pw => (decryptBytes p envelope pw).toOption)
      = some bytes from hcached]
    rfl

/-- `AccountDir.readBytes` retrieves what is found at the two paths. -/
theorem forget_readBytes (f : Fault) (name : String) (s : AccountSession κ) :
    forget (AccountDir.readBytes p prompt f name) s =
      ((retrieve (foundAt p s.disk f (s.accounts.plaintextPath name) (s.accounts.encPath name))
          (forget prompt) () s.ring).1.map Prod.fst,
        s.withRing (retrieve (foundAt p s.disk f (s.accounts.plaintextPath name)
          (s.accounts.encPath name)) (forget prompt) () s.ring).2) := by
  have hdecrypt : ∀ bytes : Bytes, forget (AccountDir.decrypt p prompt name bytes) s =
      ((retrieve (.ok (.locked (opensOf p bytes))) (forget prompt) () s.ring).1.map Prod.fst,
        s.withRing (retrieve (.ok (.locked (opensOf p bytes))) (forget prompt) () s.ring).2) := by
    intro bytes
    rw [retrieve_locked, forget_accountDecrypt]
    rcases unlock (opensOf p bytes) (forget prompt) () s.ring with ⟨_ | _ | _, _⟩ <;> rfl
  rw [forget_apply]
  unfold AccountDir.readBytes foundAt
  rw [bind_of_ok (get_apply s)]
  split_ifs with hplain hsealed
  · refine forget_find (forget_accountRead _ f _ s) rfl fun bytes => ?_
    split_ifs with hmark
    · exact hdecrypt bytes
    · rfl
  · exact forget_find (forget_accountRead _ f _ s) rfl fun bytes => hdecrypt bytes
  · rfl

end Directory

/-! ## One name, one key file -/

/-- The key file at the plaintext path of a name is found at the two paths of the name. -/
theorem at_plaintextPath (a : AccountDir) (name : String) :
    (KeyFile.at (a.plaintextPath name)).plain = a.plaintextPath name ∧
      (KeyFile.at (a.plaintextPath name)).sealedPath = a.encPath name := by
  obtain ⟨parent, last, hjoin⟩ := join_append a.dir (utf8 name)
  have hplain : a.plaintextPath name = parent ++ [last ++ utf8 ".json"] := by
    rw [AccountDir.plaintextPath, utf8_append]
    exact hjoin _ (by decide) (by decide)
  have henc : a.encPath name = parent ++ [last ++ utf8 ".json.enc"] := by
    rw [AccountDir.encPath, utf8_append]
    exact hjoin _ (by decide) (by decide)
  have hsuffix : (last ++ utf8 ".json").dropSuffix? sealedSuffix = none := by
    rcases hdrop : (last ++ utf8 ".json").dropSuffix? sealedSuffix with _ | stripped
    · rfl
    · -- the two suffixes end in different letters
      obtain ⟨suffix, hparts, heq⟩ := List.dropSuffix?_eq_some_iff.mp hdrop
      have hlast := congrArg List.getLast? hparts
      rw [eq_of_beq heq, show utf8 ".json" = [0x2E, 0x6A, 0x73, 0x6F, 0x6E] from by decide] at hlast
      simp [sealedSuffix] at hlast
  have hat : KeyFile.at (a.plaintextPath name) = ⟨a.plaintextPath name⟩ := by
    rw [hplain]
    by_cases hstr : pathIsStr (parent ++ [last ++ utf8 ".json"]) = true
    · rw [at_of_isStr hstr, plainForm_append, hsuffix]
      rfl
    · exact at_of_not_isStr hstr
  refine ⟨by rw [hat], ?_⟩
  rw [hat, hplain, sealedPath_append, henc, List.append_assoc]
  rfl

/-! ## Sequences of calls -/

/-- A caller who gives the answers of a script in turn; the state is how often it has been asked. -/
def scripted (answers : ℕ → Outcome String String) : Proc ℕ String String := fun n =>
  (answers n, n + 1)

/-- One call of `Vault.open`: the disk as it is then, and how the read goes. -/
structure OpenCall where
  disk : VaultDisk
  fault : Fault
  file : KeyFile

/-- One call of `AccountDir::read_bytes`. -/
structure ReadCall where
  disk : VaultDisk
  fault : Fault
  name : String

/-- The call of `Vault.open` for the same name. -/
def ReadCall.toOpen (dir : Path) (r : ReadCall) : OpenCall :=
  ⟨r.disk, r.fault, KeyFile.at ((AccountDir.new dir).plaintextPath r.name)⟩

section Calls

variable (p : EnvelopePrims) (answers : ℕ → Outcome String String)

def openCall (c : OpenCall) : Proc (Session ℕ) VaultError Opened := fun s =>
  Vault.open p (mapErr .prompt (scripted answers)) c.fault c.file { s with disk := c.disk }

def readCall (c : ReadCall) : Proc (AccountSession ℕ) AccountError Bytes := fun s =>
  AccountDir.readBytes p (mapErr .prompt (scripted answers)) c.fault c.name { s with disk := c.disk }

/-- The file that was opened is what `password` opens its stored form to. -/
def OpenedUnder (c : Call OpenCall (Session ℕ) VaultError Opened) (password : String) : Prop :=
  ∃ content bytes, c.outcome = .ok ⟨bytes, true⟩ ∧ storedForm c.arg.disk c.arg.file = some content ∧
    decryptBytes p content password = .ok bytes

/-- What a call of `Vault.open` keeps to. -/
structure OpenKept (c : Call OpenCall (Session ℕ) VaultError Opened) : Prop where
  /-- A sealed file is decrypted under the password the vault holds now. -/
  opened : ∀ bytes, c.outcome = .ok ⟨bytes, true⟩ →
    ∃ password, c.after.vault.password = some password ∧ OpenedUnder p c password
  /-- A plain one is returned as it is stored. -/
  plain : ∀ bytes, c.outcome = .ok ⟨bytes, false⟩ →
    storedForm c.arg.disk c.arg.file = some bytes ∧ IsPlainFile p c.arg.disk c.arg.file ∧
      c.after.vault = c.before.vault
  failed : (∀ opened, c.outcome ≠ .ok opened) → c.after.vault = c.before.vault
  atMostOnce : c.after.caller = c.before.caller ∨ c.after.caller = c.before.caller + 1
  notAsked : (IsPlainFile p c.arg.disk c.arg.file ∨ ∃ content password bytes,
      storedForm c.arg.disk c.arg.file = some content ∧ c.before.vault.password = some password ∧
        decryptBytes p content password = .ok bytes) →
    c.after.caller = c.before.caller

/-- The two calls return the same bytes, have asked as often, and hold the same password. -/
structure SameRead (c : Call OpenCall (Session ℕ) VaultError Opened)
    (r : Call ReadCall (AccountSession ℕ) AccountError Bytes) : Prop where
  bytes : c.outcome.eraseErr.map Opened.bytes = r.outcome.eraseErr
  asked : c.after.caller = r.after.caller
  password : c.after.vault.password = r.after.accounts.cachedPassword

variable {p} {answers}

/-- What a call retrieves. -/
def OpenCall.retrieved (p : EnvelopePrims) (answers : ℕ → Outcome String String) (arg : OpenCall)
    (s : Session ℕ) : Outcome Unit (Bytes × Bool) × Keyring String ℕ :=
  retrieve (foundAt p arg.disk arg.fault arg.file.plain arg.file.sealedPath)
    (forget (mapErr VaultError.prompt (scripted answers))) () s.ring

variable (p) (answers) in
theorem openCall_retrieves (arg : OpenCall) (s : Session ℕ) :
    (call (openCall p answers) arg s).outcome.eraseErr
        = (arg.retrieved p answers s).1.map (fun a => (⟨a.1, a.2⟩ : Opened)) ∧
      (call (openCall p answers) arg s).after
        = ⟨⟨(arg.retrieved p answers s).2.secret⟩, (arg.retrieved p answers s).2.asker, arg.disk⟩ := by
  have hrun := forget_vaultOpen p (mapErr .prompt (scripted answers)) arg.fault arg.file
    { s with disk := arg.disk }
  exact Prod.ext_iff.mp hrun

theorem ok_of_retrieved {arg : OpenCall} {s : Session ℕ} {a : Bytes × Bool}
    (h : (arg.retrieved p answers s).1 = .ok a) :
    (call (openCall p answers) arg s).outcome = .ok ⟨a.1, a.2⟩ := by
  have herased := (openCall_retrieves p answers arg s).1
  rw [h] at herased
  rcases hcall : (call (openCall p answers) arg s).outcome with o | e | w
  all_goals
    rw [hcall] at herased
  · exact congrArg Outcome.ok (Outcome.ok.inj herased)
  · exact absurd herased (by simp [Outcome.eraseErr])
  · exact absurd herased (by simp [Outcome.eraseErr])

variable (p) (answers) in
/-- One call keeps the discipline. -/
theorem openCall_kept (arg : OpenCall) (s : Session ℕ) :
    OpenKept p (call (openCall p answers) arg s) := by
  have hkept : Retrieved _ _ _ (arg.retrieved p answers s).1 (arg.retrieved p answers s).2 :=
    retrieve_kept _ _ _ _
  have hafter := (openCall_retrieves p answers arg s).2
  have hstep : (forget (mapErr VaultError.prompt (scripted answers)) s.ring.asker).2 = s.caller + 1 := by
    rw [forget_mapErr]
    rfl
  refine ⟨fun bytes h => ?_, fun bytes h => ?_, fun h => ?_, ?_, fun h => ?_⟩
  · obtain ⟨-, ⟨-, content, password, hstored, hpassword, hdecrypt⟩ | ⟨hplain, -⟩⟩ :=
      vaultOpen_ok p _ (Prod.ext h rfl)
    · exact ⟨password, hpassword, content, bytes, h, hstored, hdecrypt⟩
    · exact absurd hplain (by simp)
  · obtain ⟨-, ⟨hsealed, -⟩ | ⟨-, hstored, hplain, hvault⟩⟩ := vaultOpen_ok p _ (Prod.ext h rfl)
    · exact absurd hsealed (by simp)
    · exact ⟨hstored, hplain, hvault⟩
  · have hfailed := hkept.failed fun a ha => h _ (ok_of_retrieved ha)
    rw [hafter, hfailed]
    rfl
  · rw [hafter]
    rcases hkept.asked with hsame | ⟨hasked, -⟩
    · exact Or.inl hsame
    · exact Or.inr (hasked.trans hstep)
  · rw [hafter]
    rcases hkept.asked with hsame | ⟨-, opens, hfound, hnone⟩
    · exact hsame
    · -- then something was found that the password held does not open
      obtain ⟨content, hstored, rfl, hnotPlain⟩ := foundAt_locked hfound
      rcases h with hplain | ⟨content', password, bytes, hstored', hpassword, hdecrypt⟩
      · exact absurd hplain hnotPlain
      · have hcontent : content = content' := Option.some.inj (hstored.symm.trans hstored')
        have hsecret : s.ring.secret = some password := hpassword
        rw [hsecret, hcontent, Option.bind_some, opensOf_eq_some.mpr hdecrypt] at hnone
        exact absurd hnone (by simp)

variable (p) (answers) in
/-- One call of a directory does what the vault's call does. -/
theorem readCall_same (dir : Path) (r : ReadCall) {s : Session ℕ} {t : AccountSession ℕ}
    (hdir : t.accounts.dir = dir) (hring : s.ring = t.ring) :
    SameRead (call (openCall p answers) (r.toOpen dir) s) (call (readCall p answers) r t) ∧
      (call (openCall p answers) (r.toOpen dir) s).after.ring
        = (call (readCall p answers) r t).after.ring ∧
      (call (readCall p answers) r t).after.accounts.dir = dir ∧
      (call (openCall p answers) (r.toOpen dir) s).outcome.returns
        = (call (readCall p answers) r t).outcome.returns := by
  have hread := forget_readBytes p (mapErr .prompt (scripted answers)) r.fault r.name
    { t with disk := r.disk }
  -- the two look at the same paths, and ask the same caller
  have hsame : retrieve (foundAt p r.disk r.fault (t.accounts.plaintextPath r.name)
      (t.accounts.encPath r.name)) (forget (mapErr AccountError.prompt (scripted answers))) () t.ring
        = (r.toOpen dir).retrieved p answers s := by
    obtain ⟨hplain, hsealed⟩ := at_plaintextPath (AccountDir.new dir) r.name
    have hplain' : (r.toOpen dir).file.plain = t.accounts.plaintextPath r.name := by
      unfold AccountDir.plaintextPath
      rw [hdir]
      exact hplain
    have hsealed' : (r.toOpen dir).file.sealedPath = t.accounts.encPath r.name := by
      unfold AccountDir.encPath
      rw [hdir]
      exact hsealed
    unfold OpenCall.retrieved
    rw [hplain', hsealed', hring, forget_mapErr, forget_mapErr]
    rfl
  rw [show ({ t with disk := r.disk } : AccountSession ℕ).accounts = t.accounts from rfl,
    show ({ t with disk := r.disk } : AccountSession ℕ).disk = r.disk from rfl,
    show ({ t with disk := r.disk } : AccountSession ℕ).ring = t.ring from rfl, hsame] at hread
  obtain ⟨houtcome, hafter⟩ := Prod.ext_iff.mp hread
  obtain ⟨houtcome', hafter'⟩ := openCall_retrieves p answers (r.toOpen dir) s
  have hrings : (call (openCall p answers) (r.toOpen dir) s).after.ring
      = (call (readCall p answers) r t).after.ring := by
    rw [hafter', show (call (readCall p answers) r t).after = _ from hafter]
    rfl
  have hbytes : (call (openCall p answers) (r.toOpen dir) s).outcome.eraseErr.map Opened.bytes
      = (call (readCall p answers) r t).outcome.eraseErr := by
    rw [houtcome', show (call (readCall p answers) r t).outcome.eraseErr = _ from houtcome]
    rcases ((r.toOpen dir).retrieved p answers s).1 with _ | _ | _ <;> rfl
  refine ⟨⟨hbytes, congrArg Keyring.asker hrings, congrArg Keyring.secret hrings⟩, hrings, ?_, ?_⟩
  · rw [show (call (readCall p answers) r t).after = _ from hafter]
    exact hdir
  · have hreturns := Outcome.returns_eraseErr (call (readCall p answers) r t).outcome
    rw [← hreturns, ← hbytes]
    rcases (call (openCall p answers) (r.toOpen dir) s).outcome with _ | _ | _ <;> rfl

/-- Over a sequence of reads a directory does what the vault does. -/
theorem reads_same (dir : Path) (reads : List ReadCall) {s : Session ℕ} {t : AccountSession ℕ}
    (hdir : t.accounts.dir = dir) (hring : s.ring = t.ring) :
    List.Forall₂ (SameRead) (calls (openCall p answers) (reads.map (ReadCall.toOpen dir)) s)
      (calls (readCall p answers) reads t) := by
  refine calls_pairs (A := fun o r => o = ReadCall.toOpen dir r)
    (R := fun s t => t.accounts.dir = dir ∧ s.ring = t.ring) (fun o r s t hor hst => ?_) ?_
    ⟨hdir, hring⟩
  · subst hor
    obtain ⟨hsame, hrings, hdir', hreturns⟩ := readCall_same p answers dir r
      hst.1 hst.2
    exact ⟨hsame, ⟨hdir', hrings⟩, hreturns⟩
  · rw [List.forall₂_map_left_iff, List.forall₂_same]
    exact fun _ _ => rfl

/-- Wherever a sequence of calls stands, the vault holds the password it was given, or one that
opened a file. -/
theorem password_opened {s : Session ℕ} {args : List OpenCall}
    {pre post : List (Call OpenCall (Session ℕ) VaultError Opened)}
    {c : Call OpenCall (Session ℕ) VaultError Opened}
    (h : calls (openCall p answers) args s = pre ++ c :: post) {password : String}
    (hpassword : c.after.vault.password = some password) :
    s.vault.password = some password ∨ ∃ c' ∈ pre ++ [c], OpenedUnder p c' password := by
  have hrun := calls_history (I := fun past t => ∀ password, t.vault.password = some password →
      s.vault.password = some password ∨ ∃ c' ∈ past, OpenedUnder p c' password)
    (fun past arg t hI password hpassword => ?_) [] (fun _ h => Or.inl h) h
  · exact hrun password hpassword
  · have hkept := openCall_kept p answers arg t
    -- a call that leaves the vault as it was adds nothing
    have hunchanged : (call (openCall p answers) arg t).after.vault = t.vault →
        s.vault.password = some password ∨
          ∃ c' ∈ past ++ [call (openCall p answers) arg t], OpenedUnder p c' password := by
      intro hsame
      rw [hsame] at hpassword
      rcases hI password hpassword with hgiven | ⟨c', hmem, hopened⟩
      · exact Or.inl hgiven
      · exact Or.inr ⟨c', List.mem_append_left _ hmem, hopened⟩
    by_cases hreturned : ∃ opened, (call (openCall p answers) arg t).outcome = .ok opened
    · obtain ⟨⟨bytes, _ | _⟩, hok⟩ := hreturned
      · exact hunchanged (hkept.plain bytes hok).2.2
      · obtain ⟨held, hheld, hopened⟩ := hkept.opened bytes hok
        have hsame : held = password := Option.some.inj (hheld.symm.trans hpassword)
        exact Or.inr ⟨_, by simp, hsame ▸ hopened⟩
    · exact hunchanged (hkept.failed (not_exists.mp hreturned))

end Calls

/-! ## Printed pages -/

/-- A page of `file` is made from what its stored form opens to, encrypted under a password that opens
it, or in the clear from a file in the clear. -/
def PageUnder (p : EnvelopePrims) (env : PrintEnv) (root : Path) (d : VaultDisk) (file : KeyFile)
    (page : BackupPage) : Prop :=
  ∃ content, storedForm d file = some content ∧
    ((∃ password bytes, decryptBytes p content password = .ok bytes ∧
        backupPage p env.wordList env.sha512_256 env.fastKdf (env.draw file) (file.nameUnder root)
          bytes (some password) = .ok page) ∨
      (IsPlainFile p d file ∧
        backupPage p env.wordList env.sha512_256 env.fastKdf (env.draw file) (file.nameUnder root)
          content none = .ok page))

section Print

variable {κ : Type} (p : EnvelopePrims) (env : PrintEnv) (prompt : Proc κ VaultError String)

/-- The page that is printed for a file is encrypted under a password that opens it. -/
theorem printPage_triple (root : Path) (file : KeyFile) (d : VaultDisk) :
    Triple (fun s => s.disk = d) (printPage p env prompt root file)
      (fun page s => s.disk = d ∧ PageUnder p env root d file page) (fun _ _ => True) := by
  unfold printPage
  have hopen : Triple (fun s => s.disk = d) (mapErr PrintError.vault (Vault.open p prompt (env.read file) file))
      (fun opened s => s.disk = d ∧
        ((opened.wasSealed = true ∧ ∃ content password, storedForm d file = some content ∧
            s.vault.password = some password ∧
            decryptBytes p content password = .ok opened.bytes) ∨
          (opened.wasSealed = false ∧ storedForm d file = some opened.bytes ∧
            IsPlainFile p d file)))
      (fun _ _ => True) := by
    refine Triple.mapErr fun s hs => ?_
    rcases hrun : Vault.open p prompt (env.read file) file s with ⟨opened | e | w, s'⟩
    · obtain ⟨hdisk, hcase⟩ := vaultOpen_ok p prompt hrun
      rw [hs] at hdisk hcase
      exact ⟨hdisk, hcase.imp id fun h => ⟨h.1, h.2.1, h.2.2.1⟩⟩
    · exact trivial
    · exact trivial
  refine hopen.bind fun opened => ?_
  refine Triple.bind (Triple.get (Q := fun seen s => seen = s ∧ s.disk = d ∧ _) fun s hs =>
    ⟨rfl, hs⟩) fun seen => ?_
  refine Triple.ofExcept (fun page hpage s hs => ?_) fun _ _ _ _ => trivial
  obtain ⟨rfl, hdisk, hcase⟩ := hs
  have hmade := mapError_eq_ok.mp hpage
  refine ⟨hdisk, ?_⟩
  rcases hcase with ⟨hsealed, content, password, hstored, hpassword, hdecrypt⟩ |
    ⟨hplain, hstored, hclear⟩
  · rw [hsealed, if_pos rfl, hpassword] at hmade
    exact ⟨content, hstored, Or.inl ⟨password, opened.bytes, hdecrypt, hmade⟩⟩
  · rw [hplain, if_neg (by simp)] at hmade
    exact ⟨opened.bytes, hstored, Or.inr ⟨hclear, hmade⟩⟩

/-- The pages that `print` writes are those of the key files that its scan finds, where each page is
as `A` says while the session is as `J` says. -/
theorem printCommand_pages {J : Session κ → Prop} {A : KeyFile → BackupPage → Prop}
    {args : PrintArgs} {s s' : Session κ} {pages : List BackupPage}
    (hnew : J { s with vault := .new })
    (hpage : ∀ file, Triple J (printPage p env prompt args.dir file)
      (fun page s' => J s' ∧ A file page) (fun _ _ => True))
    (h : printCommand p env prompt args s = (.ok pages, s')) :
    ∃ files, (discover .ok args.dir args.recursive s.disk).1 = .ok files ∧
      List.Forall₂ A files pages := by
  unfold printCommand at h
  obtain ⟨files, s₁, hscan, hrest⟩ := bind_ok_iff.mp h
  have hdiscover : (discover env.scan args.dir args.recursive s.disk).1 = .ok files ∧ s₁ = s := by
    have hscanned := congrArg Prod.fst hscan
    have hsession : { s with disk := (mapErr PrintError.vault
        (discover env.scan args.dir args.recursive) s.disk).2 } = s₁ := congrArg Prod.snd hscan
    have hsame := (discover_respects env.scan args.dir args.recursive).mapErr
      (f := PrintError.vault) s.disk
    refine ⟨?_, by rw [← hsession, ← hsame]⟩
    have hrun : (mapErr PrintError.vault (discover env.scan args.dir args.recursive) s.disk).1
      = .ok files := hscanned
    rw [mapErr_apply] at hrun
    rcases hd : discover env.scan args.dir args.recursive s.disk with ⟨_ | _ | _, d'⟩
    all_goals
      rw [hd] at hrun
    · exact congrArg Outcome.ok (Outcome.ok.inj hrun)
    · exact absurd hrun (by simp)
    · exact absurd hrun (by simp)
  split_ifs at hrest with hempty
  · exact absurd (congrArg Prod.fst hrest) (by simp)
  obtain ⟨_, s₂, hmodify, hrest⟩ := bind_ok_iff.mp hrest
  obtain ⟨pages', s₃, hpages, hrest⟩ := bind_ok_iff.mp hrest
  have hstart : J s₂ := by
    have hnewSession : { s₁ with vault := .new } = s₂ := congrArg Prod.snd hmodify
    rw [← hnewSession, hdiscover.2]
    exact hnew
  have heach : Triple J (forEach (printPage p env prompt args.dir) files)
      (fun pages s' => J s' ∧ List.Forall₂ A files pages) (fun _ _ => True) :=
    Triple.forEach_pairs fun file _ => hpage file
  have hmade := (heach.of_ok hstart hpages).2
  obtain ⟨_, s₄, _, hrest⟩ := bind_ok_iff.mp hrest
  obtain ⟨_, s₅, _, hlast⟩ := bind_ok_iff.mp hrest
  have hsame : pages' = pages := Outcome.ok.inj (congrArg Prod.fst hlast)
  exact ⟨files, discover_ok hdiscover.1, hsame ▸ hmade⟩

/-- The pages that `print` writes. -/
theorem printCommand_ok {args : PrintArgs} {s s' : Session κ} {pages : List BackupPage}
    (h : printCommand p env prompt args s = (.ok pages, s')) :
    ∃ files, (discover .ok args.dir args.recursive s.disk).1 = .ok files ∧
      List.Forall₂ (PageUnder p env args.dir s.disk) files pages :=
  printCommand_pages p env prompt (J := fun s' => s'.disk = s.disk) rfl
    (fun file => printPage_triple p env prompt args.dir file s.disk) h

end Print

/-! ## Every password opened a file -/

/-- Over every sequence of calls of `Vault.open`, whatever the files hold, are sealed under, and
whatever the caller answers: each call returns what its file decrypts to under the password held
after it, leaves the password as it was when it fails, and asks at most once and not at all where
there is no need; the password held is always the given one or one that opened a file. The pages
that `print` writes are encrypted under passwords that open their files, and an account directory
reads the same bytes, asks as often and holds the same passwords. -/
theorem password_discipline (p : EnvelopePrims) (answers : ℕ → Outcome String String) (v : Vault)
    (asked : ℕ) (d : VaultDisk) (args : List OpenCall) :
    (∀ c ∈ calls (openCall p answers) args ⟨v, asked, d⟩, OpenKept p c) ∧
    (∀ pre c post, calls (openCall p answers) args ⟨v, asked, d⟩ = pre ++ c :: post →
      ∀ password, c.after.vault.password = some password →
        v.password = some password ∨ ∃ c' ∈ pre ++ [c], OpenedUnder p c' password) ∧
    (∀ (κ : Type) (prompt : Proc κ VaultError String) (env : PrintEnv) (print : PrintArgs)
      (s s' : Session κ) (pages : List BackupPage),
      printCommand p env prompt print s = (.ok pages, s') →
        ∃ files, (discover .ok print.dir print.recursive s.disk).1 = .ok files ∧
          List.Forall₂ (PageUnder p env print.dir s.disk) files pages) ∧
    ∀ (dir : Path) (reads : List ReadCall), List.Forall₂ SameRead
      (calls (openCall p answers) (reads.map (ReadCall.toOpen dir)) ⟨v, asked, d⟩)
      (calls (readCall p answers) reads
        ⟨(AccountDir.new dir).withCachedPassword v.password, asked, d⟩) := by
  refine ⟨fun c hc => ?_, fun pre c post h password hpassword => password_opened h hpassword,
    fun κ prompt env print s s' pages h => printCommand_ok p env prompt h, fun dir reads => ?_⟩
  · rw [of_mem_calls hc]
    exact openCall_kept p answers c.arg c.before
  · exact reads_same dir reads rfl rfl

/-- `a.key` sealed under "pw", `b.key` in the clear, and `c.key` sealed under "x". -/
def sampleDisk : VaultDisk := Disk.mount
  [([[0x61, 0x2E, 0x6B, 0x65, 0x79, 0x2E, 0x65, 0x6E, 0x63]],
      .file (0x7B :: ((sampleKey (utf8 "pw")).1.take 16 ++ [7]))),
    ([[0x62, 0x2E, 0x6B, 0x65, 0x79]], .file [8]),
    ([[0x63, 0x2E, 0x6B, 0x65, 0x79, 0x2E, 0x65, 0x6E, 0x63]],
      .file (0x7B :: ((sampleKey (utf8 "x")).1.take 16 ++ [9])))]

/-- The three files, and the first one again: by then the vault holds another password, and the
caller declines. -/
def sampleCalls : List OpenCall :=
  [⟨sampleDisk, .none, ⟨[[0x61, 0x2E, 0x6B, 0x65, 0x79]]⟩⟩,
    ⟨sampleDisk, .none, ⟨[[0x62, 0x2E, 0x6B, 0x65, 0x79]]⟩⟩,
    ⟨sampleDisk, .none, ⟨[[0x63, 0x2E, 0x6B, 0x65, 0x79]]⟩⟩,
    ⟨sampleDisk, .none, ⟨[[0x61, 0x2E, 0x6B, 0x65, 0x79]]⟩⟩]

def sampleAnswers : ℕ → Outcome String String
  | 0 => .ok "pw"
  | 1 => .ok "x"
  | _ => .err "cancelled"

theorem password_discipline_mixed :
    ((calls (openCall samplePrims sampleAnswers) sampleCalls ⟨.new, 0, sampleDisk⟩).map fun c =>
        (c.outcome, c.after.vault.password, c.after.caller))
      = [(.ok ⟨[7], true⟩, some "pw", 1), (.ok ⟨[8], false⟩, some "pw", 1),
        (.ok ⟨[9], true⟩, some "x", 2), (.err (.prompt "cancelled"), some "x", 3)] ∧
    ∀ c ∈ calls (openCall samplePrims sampleAnswers) sampleCalls ⟨.new, 0, sampleDisk⟩,
      OpenKept samplePrims c :=
  ⟨by decide, (password_discipline samplePrims sampleAnswers .new 0 sampleDisk sampleCalls).1⟩

end BlockchainOps.AccountVault
