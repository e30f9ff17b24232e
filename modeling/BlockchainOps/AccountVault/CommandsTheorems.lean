import BlockchainOps.AccountVault.CommandRules
import BlockchainOps.AccountVault.PartialSeals

/-!
# One directory tree, one password

A command should refuse a password that does not open what is sealed in its tree, and leave the
tree alone then; and whatever happens, a tree whose sealed forms all opened under one password
should stay such a tree (`Command.OnePassword`).

The check looks only at key files of which the sealed form alone is on disk. A key file in both
forms, or a sealed form whose name is not UTF-8, is left for the loop to stop at, so a sealed form
that the password does not open goes unnoticed while the files before it are sealed
(`Command.Mixed`). And a creation that stops half-way may leave a file that nothing opens
(`Command.Cut`). There is no other way to end with two passwords (`onePassword_iff`).
-/

namespace BlockchainOps.AccountVault

open Effect Proc Storage

/-! ## The property -/

variable (p : EnvelopePrims) (env : CommandEnv)

/-- The sealed form of `file` belongs to the tree: `file` was found, or its sealed form was, as a
key file of its own. -/
def Listed (files : List KeyFile) (file : KeyFile) : Prop :=
  file ∈ files ∨ ⟨file.sealedPath⟩ ∈ files

/-- Every sealed form of the tree opens under `password`. -/
def AllOpen (d : VaultDisk) (files : List KeyFile) (password : String) : Prop :=
  ∀ file envelope, Listed files file → d.node file.sealedPath = some (.file envelope) →
    OpensUnder p d password file

/-- The command is given `password`: it has something to seal, and `password` is typed. -/
def Command.Asks (c : Command) (d : VaultDisk) (files : List KeyFile) (password : String) : Prop :=
  env.password = .ok password ∧
    match c with
    | .seal _ => ∃ file ∈ files, file.isSealed d = false
    | .create args => args.plain = false

/-- One directory tree, one password. -/
structure Command.OnePassword (c : Command) (d : VaultDisk) : Prop where
  /-- A password that does not open every sealed form is refused, and nothing changes. -/
  refuses : ∀ files password, c.tree d = .ok files → c.Asks env d files password →
    ¬ AllOpen p d files password →
    (∀ printed, (c.run p env d).1 ≠ .ok printed) ∧ (c.run p env d).2 = d
  /-- If the sealed forms opened under one password, they do so afterwards, and with them every
  sealed form that was not there before. -/
  keeps : ∀ files, c.tree d = .ok files → (∃ x, AllOpen p d files x) →
    ∃ y, ∀ file envelope, (Listed files file ∨ d.node file.sealedPath = none) →
      (c.run p env d).2.node file.sealedPath = some (.file envelope) →
      OpensUnder p (c.run p env d).2 y file

/-! ## The condition -/

/-- A `create` whose checks pass comes to create its sealed file, which is to hold `envelope`. -/
structure CommandEnv.CreatesNew (args : CreateArgs) (d : VaultDisk) (password : String)
    (envelope : Bytes) : Prop where
  encrypts : args.plain = false
  name : extension ((KeyFile.at args.file).plain.getLast?.getD []) = some accountExtension
  free : (KeyFile.at args.file).exists d = false
  directory : isDirPath d (KeyFile.at args.file).plain.dropLast = true
  prefixCheck : env.prefixCheck = .ok ()
  account : ∃ bytes, env.account = .ok bytes ∧
    freshEnvelope p env.fastKdf (env.draw (KeyFile.at args.file)) password bytes
      (.newNoRoundTrip (KeyFile.at args.file).plain) = .ok envelope
  create : (env.steps (KeyFile.at args.file)).create ≠ .fail

/-- A command whose checks pass comes to create the sealed form of `file`: the files before it are
sealed. -/
def Command.Creates (c : Command) (d : VaultDisk) (files : List KeyFile) (password : String)
    (file : KeyFile) (envelope : Bytes) : Prop :=
  match c with
  | .seal _ => ∃ before after,
      files.filter (fun file => !file.isSealed d) = before ++ file :: after ∧
      (∀ other ∈ before, env.Seals p d password other) ∧ env.Creates p d password file envelope
  | .create args => file = KeyFile.at args.file ∧ env.CreatesNew p args d password envelope

/-- The checks pass although the password does not open every sealed form of the tree, and the
command goes on to create a sealed file. -/
def Command.Mixed (c : Command) (d : VaultDisk) : Prop :=
  ∃ files password file envelope, c.Passes p env d files password ∧
    c.Creates p env d files password file envelope ∧ ¬ AllOpen p d files password

/-- The command comes to create a sealed file, and what is left of it does not open under the
password. -/
def Command.Cut (c : Command) (d : VaultDisk) : Prop :=
  ∃ files password file envelope stored, c.Passes p env d files password ∧
    c.Creates p env d files password file envelope ∧
    (env.steps file).left envelope = some stored ∧
    ∀ bytes, decryptBytes p stored password ≠ .ok bytes

/-- What is left of an envelope that opens under a password opens under that one, if under any. -/
def CommandEnv.LeavesNoOther : Prop :=
  ∀ file envelope stored password other bytes bytes',
    decryptBytes p envelope password = .ok bytes →
    (env.steps file).left envelope = some stored → decryptBytes p stored other = .ok bytes' →
    ∃ opened, decryptBytes p stored password = .ok opened

variable {p : EnvelopePrims} {env : CommandEnv}

theorem CommandEnv.Prepares.createsNew {args : CreateArgs} {d : VaultDisk} {bytes : Bytes}
    (h : env.Prepares args d bytes) (hencrypts : args.plain = false) {password : String}
    {envelope : Bytes} (hfresh : freshEnvelope p env.fastKdf (env.draw (KeyFile.at args.file))
      password bytes (.newNoRoundTrip (KeyFile.at args.file).plain) = .ok envelope)
    (hcreate : (env.steps (KeyFile.at args.file)).create ≠ .fail) :
    env.CreatesNew p args d password envelope :=
  ⟨hencrypts, h.name, h.free, h.directory, h.prefixCheck, ⟨bytes, h.account, hfresh⟩, hcreate⟩

/-! ## What a command keeps -/

/-- A key file that is not on disk has no sealed form. -/
theorem sealed_absent {file : KeyFile} {d : VaultDisk} (h : file.exists d = false) :
    d.node file.sealedPath = none := by
  simp only [KeyFile.exists, Bool.or_eq_false_iff] at h
  exact pathExists_eq_false.mp h.2

theorem refuseExisting_respects (file : KeyFile) : Respects Eq (refuseExisting file) := by
  refine Respects.get.bind fun d => ?_
  by_cases h : file.exists d = true
  · rw [if_pos h]
    exact Respects.raise _
  · rw [if_neg h]
    exact Respects.pure _

/-- Between two states of the disk every sealed form has stayed as it was, or has gone, or opens
under `password`. -/
def KeepsForms (p : EnvelopePrims) (password : String) (d d' : VaultDisk) : Prop :=
  ∀ file : KeyFile, d'.node file.sealedPath = d.node file.sealedPath ∨
    d'.node file.sealedPath = none ∨ OpensUnder p d' password file

section KeepsForms

variable {password : String}

theorem KeepsForms.refl (d : VaultDisk) : KeepsForms p password d d := fun _ => Or.inl rfl

instance : Std.Refl (KeepsForms p password) := ⟨KeepsForms.refl⟩

instance : IsTrans VaultDisk (KeepsForms p password) := ⟨fun d d' d'' h h' file => by
  rcases h' file with hsame | hnone | hopens
  · rcases h file with hsame' | hnone' | ⟨envelope, bytes, hnode, hopen⟩
    · exact Or.inl (hsame.trans hsame')
    · exact Or.inr (Or.inl (hsame.trans hnone'))
    · exact Or.inr (Or.inr ⟨envelope, bytes, hsame.trans hnode, hopen⟩)
  · exact Or.inr (Or.inl hnone)
  · exact Or.inr (Or.inr hopens)⟩

/-- A change of which the sealed path of `file` alone may keep something new, and that opens. -/
theorem keepsForms_of_sealedPath {d d' : VaultDisk} (file : KeyFile)
    (hother : ∀ q, q ≠ file.sealedPath → d'.node q = d.node q ∨ d'.node q = none)
    (hself : d'.node file.sealedPath = none ∨ OpensUnder p d' password file) :
    KeepsForms p password d d' := by
  intro other
  by_cases h : other.sealedPath = file.sealedPath
  · rcases hself with hnone | ⟨envelope, bytes, hnode, hopen⟩
    · exact Or.inr (Or.inl (h ▸ hnone))
    · exact Or.inr (Or.inr ⟨envelope, bytes, h ▸ hnode, hopen⟩)
  · exact (hother _ h).imp id Or.inl

/-- What is left at a sealed path is nothing, or opens. -/
theorem opensUnder_of_left {d : VaultDisk} {file : KeyFile} {left : Option Bytes}
    (hnode : d.node file.sealedPath = left.map .file)
    (hopens : ∀ stored, left = some stored →
      ∃ bytes, decryptBytes p stored password = .ok bytes) :
    d.node file.sealedPath = none ∨ OpensUnder p d password file := by
  rcases left with _ | stored
  · exact Or.inl hnode
  · obtain ⟨bytes, hopen⟩ := hopens stored rfl
    exact Or.inr ⟨stored, bytes, hnode, hopen⟩

/-- A creation keeps the sealed forms if what it leaves opens. -/
theorem writeChecked_keepsForms {f : StoreFaults} {file : KeyFile} {envelope : Bytes}
    {d₀ : VaultDisk} (hnone : d₀.node file.sealedPath = none) (mismatch : VaultError)
    (hopens : ∀ stored, f.left envelope = some stored →
      ∃ bytes, decryptBytes p stored password = .ok bytes) :
    KeepsForms p password d₀ (writeChecked f file.sealedPath envelope mismatch d₀).2 := by
  have hleft := (writeChecked_left (f := f) envelope hnone mismatch).last rfl
  refine keepsForms_of_sealedPath file (fun q hq => Or.inl ?_)
    (opensUnder_of_left hleft.node hopens)
  exact (writeChecked_sameAt envelope mismatch hq d₀).1

/-- A seal keeps the sealed forms if what it leaves opens. -/
theorem sealFile_keepsForms {file : KeyFile} {s : VaultDisk}
    (hopens : ∀ envelope stored, env.Creates p s password file envelope →
      (env.steps file).left envelope = some stored →
      ∃ bytes, decryptBytes p stored password = .ok bytes) :
    KeepsForms p password s (env.sealFile p password file s).2 := by
  have hstage := seal_triple p env.fastKdf (env.draw file) (env.steps file) password file s s rfl
  have hends := sealFile_triple p env password file s s rfl
  have hself : ∀ {envelope : Bytes} {s' : VaultDisk}, env.Creates p s password file envelope →
      env.SealLeft file envelope s' →
      s'.node file.sealedPath = none ∨ OpensUnder p s' password file := fun hcreates hleft =>
    opensUnder_of_left hleft.node fun stored hstored => hopens _ stored hcreates hstored
  have hother : ∀ {envelope : Bytes} {s' : VaultDisk},
      SealStage (env.steps file) s file envelope s' →
      ∀ q, q ≠ file.sealedPath → s'.node q = s.node q ∨ s'.node q = none := by
    intro envelope s' h q hq
    cases h with
    | storing _ hleft => exact Or.inl (hleft.node_of_ne hq).1
    | stored => exact Or.inl (by rw [Disk.node_settle, Disk.node_put, if_neg hq])
    | removed =>
      rw [Disk.node_drop, Disk.node_settle, Disk.node_put, if_neg hq]
      split_ifs
      · exact Or.inr rfl
      · exact Or.inl rfl
  unfold CommandEnv.sealFile at hends ⊢
  rcases hrun : Vault.seal p env.fastKdf (env.draw file) (env.steps file)
    (Vault.withPassword password) file s with ⟨b | e | w, s'⟩ <;> rw [hrun] at hstage hends
  · rcases hstage with ⟨-, rfl, -⟩ | ⟨rfl, content, envelope, -, -, -, hs'⟩
    · exact KeepsForms.refl s'
    obtain ⟨-, created, hcreates, hleft⟩ := hends.resolve_left fun h => absurd h.1 (by simp)
    exact keepsForms_of_sealedPath file (hs' ▸ hother .removed) (hself hcreates hleft)
  all_goals
    rcases hends with ⟨rfl, -⟩ | ⟨created, hcreates, hleft⟩
    · exact KeepsForms.refl _
    rcases hstage with rfl | ⟨content, envelope, -, -, h⟩
    · exact KeepsForms.refl _
    · exact keepsForms_of_sealedPath file (hother h) (hself hcreates hleft)

variable {fastKdf : Bool} {draw : Draw} {f : StoreFaults} {file : KeyFile} {bytes : Bytes}
  {d₀ : VaultDisk}

/-- A new key file keeps the sealed forms if what its creation leaves opens. -/
theorem sealNew_keepsForms (hfree : file.exists d₀ = false)
    (hopens : ∀ envelope stored, freshEnvelope p fastKdf draw password bytes
        (.newNoRoundTrip file.plain) = .ok envelope → f.left envelope = some stored →
      ∃ opened, decryptBytes p stored password = .ok opened) :
    Triple (fun d => d = d₀)
      (Vault.sealNew p fastKdf draw f (Vault.withPassword password) file bytes)
      (fun _ d => KeepsForms p password d₀ d) (fun _ d => KeepsForms p password d₀ d) := by
  unfold Vault.sealNew
  refine Triple.bind (Q := fun pw d => pw = password ∧ d = d₀)
    (Triple.pure fun d hd => ⟨rfl, hd⟩) fun pw => Triple.of_fact fun hpw => ?_
  subst hpw
  refine Triple.bind (((refuseExisting_respects file).triple_eq d₀).post (fun _ _ h => h.2)
    fun _ d hd => hd ▸ KeepsForms.refl d) fun _ => ?_
  refine Triple.bind (Q := fun envelope d => freshEnvelope p fastKdf draw pw bytes
      (.newNoRoundTrip file.plain) = .ok envelope ∧ d = d₀)
    (Triple.ofExcept (fun _ h d hd => ⟨h, hd⟩) fun _ _ d hd => hd ▸ KeepsForms.refl d)
    fun envelope => Triple.of_fact fun hfresh => ?_
  refine Triple.bind (Q := fun _ d => KeepsForms p pw d₀ d)
    (Triple.of_eq (Triple.ends_of_last ?_)) fun _ => Triple.pure fun _ h => h
  exact writeChecked_keepsForms (sealed_absent hfree) _ fun stored hstored =>
    hopens envelope stored hfresh hstored

/-- A new key file that is not encrypted or not created changes nothing. -/
theorem sealNew_refused (hno : ∀ envelope, freshEnvelope p fastKdf draw password bytes
      (.newNoRoundTrip file.plain) = .ok envelope → f.create = .fail) :
    Triple (fun d => d = d₀)
      (Vault.sealNew p fastKdf draw f (Vault.withPassword password) file bytes)
      (fun _ _ => False) (fun _ d => d = d₀) := by
  unfold Vault.sealNew
  refine Triple.bind (Q := fun pw d => pw = password ∧ d = d₀)
    (Triple.pure fun d hd => ⟨rfl, hd⟩) fun pw => Triple.of_fact fun hpw => ?_
  subst hpw
  refine Triple.bind (((refuseExisting_respects file).triple_eq d₀).post (fun _ _ h => h.2)
    fun _ _ hd => hd) fun _ => ?_
  refine Triple.bind (Q := fun envelope d => freshEnvelope p fastKdf draw pw bytes
      (.newNoRoundTrip file.plain) = .ok envelope ∧ d = d₀)
    (Triple.ofExcept (fun _ h d hd => ⟨h, hd⟩) fun _ _ _ hd => hd) fun envelope =>
      Triple.of_fact fun hfresh => ?_
  exact (writeChecked_refused (hno envelope hfresh) _ _ _ d₀).bind_never

/-- The extension of a sealed file is not an account's. -/
theorem extension_sealed (name : Bytes) :
    extension (name ++ sealedSuffix) ≠ some accountExtension := by
  have htake : (name ++ sealedSuffix).reverse.takeWhile (fun b => decide (b ≠ 0x2E))
      = [0x63, 0x6E, 0x65] := by
    simp [sealedSuffix]
  unfold extension
  simp only [htake]
  split_ifs <;> decide

/-- A file with an account's extension is not at the sealed path of any key file. -/
theorem sealedPath_ne_account {path : Path}
    (h : extension (path.getLast?.getD []) = some accountExtension) (file : KeyFile) :
    file.sealedPath ≠ path := by
  rintro rfl
  unfold KeyFile.sealedPath at h
  rcases hlast : file.plain.getLast? with _ | name
  · rw [hlast] at h
    exact extension_sealed [] h
  · rw [hlast] at h
    simp only [List.getLast?_concat, Option.getD_some] at h
    exact extension_sealed name h

/-- A new file in the clear is at no sealed path. -/
theorem writeNewPlain_keepsForms {f : WriteFaults} {file : KeyFile}
    (hname : extension (file.plain.getLast?.getD []) = some accountExtension) (bytes : Bytes) :
    Respects (KeepsForms p password) (writeNewPlain f file bytes) := by
  have hsame : ∀ (d₀ d : VaultDisk), (∀ q, q ≠ file.plain → d.node q = d₀.node q) →
      KeepsForms p password d₀ d :=
    fun d₀ d h other => Or.inl (h _ (sealedPath_ne_account hname other))
  refine Respects.of_triple fun d₀ => ?_
  refine Triple.bind (((refuseExisting_respects file).triple_eq d₀).post (fun _ _ h => h.2)
    fun _ d hd => hd ▸ KeepsForms.refl d) fun _ => ?_
  refine ((writePrivate_triple f file.plain bytes d₀).post (fun _ d h => ?_)
    fun _ d h => hsame d₀ d fun q hq => (h.node_of_ne hq).1).bind fun _ => Triple.pure fun _ h => h
  obtain ⟨-, stored, -, rfl⟩ := h
  refine hsame d₀ _ fun q hq => ?_
  rw [Disk.node_settle, Disk.node_put, if_neg hq]

end KeepsForms

/-! ## Runs of the commands -/

section Runs

variable {password : String} {d : VaultDisk} {files : List KeyFile}

/-- A file that is to be sealed has its plaintext on disk. -/
theorem plain_of_unsealed {faults : ScanFaults} {dir : Path} {recursive : Bool}
    (h : (discover faults dir recursive d).1 = .ok files) {file : KeyFile}
    (hfile : file ∈ files.filter fun file => !file.isSealed d) : d.node file.plain ≠ none := by
  obtain ⟨hmem, hunsealed⟩ := List.mem_filter.mp hfile
  have hexists := exists_of_discover h hmem
  refine pathExists_eq_true.mp ?_
  cases hplain : d.pathExists file.plain
  · simp only [KeyFile.exists, KeyFile.isSealed, hplain, Bool.false_or, Bool.not_false,
      Bool.true_and] at hexists hunsealed
    rw [hexists] at hunsealed
    exact absurd hunsealed (by simp)
  · rfl

/-- What a command creates is an envelope that opens under the password given. -/
theorem Command.Creates.opens {c : Command} {file : KeyFile} {envelope : Bytes}
    (h : c.Creates p env d files password file envelope) :
    ∃ bytes, decryptBytes p envelope password = .ok bytes := by
  rcases c with args | args
  · obtain ⟨before, after, -, -, hcreates⟩ := h
    obtain ⟨content, -, henvelope⟩ := hcreates.plain
    rcases sealedEnvelope_opens henvelope with ⟨-, rfl, hopen⟩ | ⟨-, hopen⟩
    · exact hopen
    · exact ⟨content, hopen⟩
  · obtain ⟨-, hnew⟩ := h
    obtain ⟨bytes, -, hfresh⟩ := hnew.account
    exact ⟨bytes, freshEnvelope_opens hfresh⟩

/-- A command that comes to create a sealed file was given a password. -/
theorem Command.Creates.asks {c : Command} {file : KeyFile} {envelope : Bytes}
    (h : c.Creates p env d files password file envelope)
    (hpasses : c.Passes p env d files password) :
    c.Asks env d files password := by
  refine ⟨hpasses.given, ?_⟩
  rcases c with args | args
  · obtain ⟨before, after, hunsealed, -⟩ := h
    have hmem : file ∈ files.filter fun file => !file.isSealed d := by simp [hunsealed]
    obtain ⟨hfile, hplain⟩ := List.mem_filter.mp hmem
    exact ⟨file, hfile, by simpa using hplain⟩
  · exact h.2.encrypts

/-- A command creates a sealed form where there was nothing. -/
theorem Command.Creates.absent {c : Command} {file : KeyFile} {envelope : Bytes}
    (h : c.Creates p env d files password file envelope) : d.node file.sealedPath = none := by
  rcases c with args | args
  · obtain ⟨before, after, -, -, hcreates⟩ := h
    exact hcreates.absent
  · obtain ⟨rfl, hnew⟩ := h
    exact sealed_absent hnew.free

/-- A seal whose checks pass seals the files of which the plaintext is on disk. -/
theorem Command.seal_run {args : SealArgs} (h : (Command.seal args).Passes p env d files password)
    (hsome : files.filter (fun file => !file.isSealed d) ≠ []) :
    ((Command.seal args).run p env d).2 = (forEach (env.sealEach p password)
      (files.filter fun file => !file.isSealed d) d).2 := by
  obtain ⟨_, hchecked⟩ := (checkReference_triple args.samePasswordAs password d).check_ok
    h.reference
  obtain ⟨_, hchecked'⟩ := (checkSealed_triple files password d).check_ok h.sealed
  have hgiven : (ofExcept env.password : Proc VaultDisk VaultError String) d
      = (.ok password, d) := by
    rw [h.given]
    rfl
  have hscan : discover env.scan args.dir args.recursive d = (.ok files, d) :=
    discover_apply h.found
  show (sealCommand p env args d).2 = _
  unfold sealCommand
  rw [bind_of_ok hscan, bind_of_ok (get_apply d)]
  simp only []
  rw [if_neg hsome, bind_of_ok hgiven, bind_of_ok hchecked, bind_of_ok hchecked', sealFiles_eq]
  exact bind_pure_snd _ _ _

/-- A `create` whose checks pass writes the sealed form of its file. -/
theorem Command.create_run {args : CreateArgs} {envelope : Bytes}
    (h : (Command.create args).Passes p env d files password)
    (hnew : env.CreatesNew p args d password envelope) :
    ((Command.create args).run p env d).2 =
      (writeChecked (env.steps (KeyFile.at args.file)).toStoreFaults
        (KeyFile.at args.file).sealedPath envelope
        (.newNotReadBack (KeyFile.at args.file).sealedPath) d).2 := by
  obtain ⟨_, hchecked⟩ := (checkReference_triple args.samePasswordAs password d).check_ok
    h.reference
  obtain ⟨_, hchecked'⟩ := (checkSealed_triple files password d).check_ok h.sealed
  have hgiven : (ofExcept env.password : Proc VaultDisk VaultError String) d
      = (.ok password, d) := by
    rw [h.given]
    rfl
  have hvault : createVault p env args (KeyFile.at args.file).plain.dropLast d
      = (.ok (some (Vault.withPassword password)), d) := by
    have hscan : discover env.scan (KeyFile.at args.file).plain.dropLast false d
        = (.ok files, d) := discover_apply h.found
    unfold createVault
    rw [if_neg (by simp [hnew.encrypts]), bind_of_ok hgiven, bind_of_ok hchecked,
      bind_of_ok hscan, bind_of_ok hchecked']
    rfl
  have hprefix : (ofExcept env.prefixCheck : Proc VaultDisk VaultError Unit) d = (.ok (), d) := by
    rw [hnew.prefixCheck]
    rfl
  obtain ⟨bytes, haccount, hfresh⟩ := hnew.account
  have hbytes : (ofExcept env.account : Proc VaultDisk VaultError Bytes) d = (.ok bytes, d) := by
    rw [haccount]
    rfl
  have hrefuse : (refuseExisting (KeyFile.at args.file)) d = (.ok (), d) := by
    unfold refuseExisting
    rw [bind_of_ok (get_apply d), if_neg (by simp [hnew.free])]
    rfl
  have hpassword : (ofExcept (Vault.withPassword password).requiredPassword :
      Proc VaultDisk VaultError String) d = (.ok password, d) := rfl
  have henvelope : (ofExcept (freshEnvelope p env.fastKdf (env.draw (KeyFile.at args.file))
      password bytes (.newNoRoundTrip (KeyFile.at args.file).plain)) :
      Proc VaultDisk VaultError Bytes) d = (.ok envelope, d) := by
    rw [hfresh]
    rfl
  show (createCommand p env args d).2 = _
  unfold createCommand
  rw [if_neg (by simp [hnew.name]), bind_of_ok (get_apply d), if_neg (by simp [hnew.free]),
    if_neg (by simp [hnew.directory]), bind_of_ok hprefix, bind_of_ok hvault, bind_of_ok hbytes]
  simp only []
  rw [bind_pure_snd]
  unfold Vault.sealNew
  rw [bind_of_ok hpassword, bind_of_ok hrefuse, bind_of_ok henvelope, bind_pure_snd]

/-- A command that comes to create a sealed file leaves a trace of one where there was nothing. -/
theorem Command.run_trace {c : Command} {file : KeyFile} {envelope : Bytes}
    (h : c.Passes p env d files password)
    (hcreates : c.Creates p env d files password file envelope) :
    ∃ path, d.node path = none ∧
      ((c.run p env d).2.node path ≠ none ∨ (c.run p env d).2.unsettledAt path ≠ none) := by
  rcases c with args | args
  · obtain ⟨before, after, hunsealed, hbefore, hfile⟩ := hcreates
    -- the first of the files comes to be created as well
    obtain ⟨head, rest, created, hsplit, hhead⟩ : ∃ head rest created,
        before ++ file :: after = head :: rest ∧ env.Creates p d password head created := by
      rcases before with _ | ⟨head, before⟩
      · exact ⟨file, after, envelope, rfl, hfile⟩
      · obtain ⟨created, hcreated, -⟩ := hbefore head List.mem_cons_self
        exact ⟨head, before ++ file :: after, created, rfl, hcreated⟩
    rw [hsplit] at hunsealed
    refine ⟨head.sealedPath, hhead.absent, ?_⟩
    rw [Command.seal_run h (by simp [hunsealed]), hunsealed]
    refine sealEach_trace hhead fun other hother heq => ?_
    have hlisted := hunsealed ▸ List.mem_cons_of_mem head hother
    exact plain_of_unsealed h.found hlisted (heq ▸ hhead.absent)
  · obtain ⟨rfl, hnew⟩ := hcreates
    have hnone := sealed_absent hnew.free
    refine ⟨_, hnone, ?_⟩
    rw [Command.create_run h hnew]
    exact ((writeChecked_left _ hnone _).last rfl).trace hnew.create

/-- What a command leaves of a sealed file that it comes to create, but does not complete. -/
theorem Command.run_left {c : Command} {file : KeyFile} {envelope : Bytes}
    (h : c.Passes p env d files password)
    (hcreates : c.Creates p env d files password file envelope)
    (hcut : (env.steps file).left envelope ≠ some envelope) :
    (c.run p env d).2.node file.sealedPath = ((env.steps file).left envelope).map .file := by
  rcases c with args | args
  · obtain ⟨before, after, hunsealed, hbefore, hfile⟩ := hcreates
    have hnodup : (before ++ file :: after).Nodup := by
      rw [← hunsealed]
      exact (discover_finds h.found).1.filter _
    have hnil : ∀ other ∈ before ++ file :: after, other.plain ≠ [] := by
      intro other hother
      rw [← hunsealed] at hother
      exact plain_ne_nil_of_discover h.found (List.mem_filter.mp hother).1
    obtain ⟨hbeforeNodup, -, hapart⟩ := List.nodup_append.mp hnodup
    rw [Command.seal_run h (by simp [hunsealed]), hunsealed]
    exact sealEach_left before after d hbefore hfile
      (fun hmem => hapart file hmem file List.mem_cons_self rfl) hbeforeNodup
      (hnil file (by simp)) (fun other hother => hnil other (List.mem_append_left _ hother)) hcut
  · obtain ⟨rfl, hnew⟩ := hcreates
    rw [Command.create_run h hnew]
    exact ((writeChecked_left _ (sealed_absent hnew.free) _).last rfl).node

/-- If every password the command can be given is `password`, and no creation is cut, it keeps the
sealed forms or leaves forms that open under it. -/
theorem Command.run_keepsForms (c : Command) (hcut : ¬ c.Cut p env d) (htree : c.tree d = .ok files)
    (hpassword : ∀ given, c.Asks env d files given → given = password) :
    KeepsForms p password d (c.run p env d).2 := by
  have hopens : ∀ {file : KeyFile} {envelope stored : Bytes},
      c.Passes p env d files password → c.Creates p env d files password file envelope →
      (env.steps file).left envelope = some stored →
      ∃ bytes, decryptBytes p stored password = .ok bytes := by
    intro file envelope stored hpasses hcreates hstored
    by_contra hnone
    exact hcut ⟨files, password, file, envelope, stored, hpasses, hcreates, hstored,
      fun bytes hopen => hnone ⟨bytes, hopen⟩⟩
  have hsame : KeepsForms p password d d := KeepsForms.refl d
  have hfiles : ∀ {found given}, c.Passes p env d found given → found = files := fun hpasses =>
    Outcome.ok.inj ((discover_ok hpasses.found).symm.trans htree)
  rcases c with args | args
  · have hrun : Triple (fun s => s = d) (sealCommand p env args)
        (fun _ => KeepsForms p password d) (fun _ => KeepsForms p password d) := by
      refine sealCommand_triple (fun _ => hsame) (fun _ _ _ => hsame)
        fun found given hpasses hsome => ?_
      obtain rfl := hfiles hpasses
      -- there is something to seal, so the password was asked for
      obtain rfl : given = password := by
        obtain ⟨file, hfile⟩ := List.exists_mem_of_ne_nil _ hsome
        obtain ⟨hmem, hunsealed⟩ := List.mem_filter.mp hfile
        exact hpassword given ⟨hpasses.given, file, hmem, by simpa using hunsealed⟩
      -- each seal of the run starts while its file is still as it was
      refine Triple.of_eq (Triple.ends_of_last ?_)
      rw [sealFiles_eq, bind_pure_snd]
      refine sealEach_stages (fun before file after s hfiles hbefore hsame =>
          sealFile_keepsForms fun envelope stored hcreates hstored => ?_)
        (fun file hfile => plain_of_unsealed hpasses.found hfile)
        (fun file hfile => plain_ne_nil_of_discover hpasses.found (List.mem_filter.mp hfile).1)
        ((discover_finds hpasses.found).1.filter _) ((discover_inOrder hpasses.found).filter _)
      exact hopens hpasses ⟨before, after, hfiles, hbefore, hcreates.congr hsame.symm⟩ hstored
    exact hrun.last rfl
  · have hrun : Triple (fun s => s = d) (createCommand p env args)
        (fun _ => KeepsForms p password d) (fun _ => KeepsForms p password d) := by
      refine createCommand_triple (fun _ => hsame) (fun bytes hprepares _ => ?_)
        fun found given bytes hpasses hprepares hencrypts => ?_
      · exact (writeNewPlain_keepsForms hprepares.name bytes).triple d
      · obtain rfl := hfiles hpasses
        obtain rfl := hpassword given ⟨hpasses.given, hencrypts⟩
        refine sealNew_keepsForms hprepares.free fun envelope stored hfresh hstored => ?_
        refine hopens hpasses ⟨rfl, hprepares.createsNew hencrypts hfresh fun hfail => ?_⟩ hstored
        simp [StoreFaults.left, hfail] at hstored
    exact hrun.last rfl

/-- A command that would not mix passwords refuses one that does not open every sealed form, and
leaves the disk as it was. -/
theorem Command.run_refuses (c : Command) (hmixed : ¬ c.Mixed p env d)
    (htree : c.tree d = .ok files) (hasks : c.Asks env d files password)
    (hall : ¬ AllOpen p d files password) :
    Triple (fun s => s = d) (c.run p env) (fun _ _ => False) (fun _ s => s = d) := by
  obtain ⟨hpassword, hasked⟩ := hasks
  have hsame : ∀ {found given}, c.Passes p env d found given → found = files ∧ given = password :=
    fun hpasses => ⟨Outcome.ok.inj ((discover_ok hpasses.found).symm.trans htree),
      Except.ok.inj (hpasses.given.symm.trans hpassword)⟩
  -- the checks have passed, so the command does not come to create a sealed form
  have hnot : ∀ {file : KeyFile} {envelope : Bytes}, c.Passes p env d files password →
      ¬ c.Creates p env d files password file envelope := fun hpasses hcreates =>
    hmixed ⟨files, password, _, _, hpasses, hcreates, hall⟩
  rcases c with args | args
  · refine sealCommand_triple (fun _ => rfl) (fun found hfound hnone => ?_)
      fun found given hpasses hsome => ?_
    · -- the command has something to seal
      obtain ⟨file, hfile, hunsealed⟩ := hasked
      have hfiles : found = files := Outcome.ok.inj ((discover_ok hfound).symm.trans htree)
      have hmem : file ∈ found.filter fun file => !file.isSealed d :=
        List.mem_filter.mpr ⟨hfiles ▸ hfile, by simp [hunsealed]⟩
      rw [hnone] at hmem
      exact absurd hmem (by simp)
    · obtain ⟨rfl, rfl⟩ := hsame hpasses
      rcases hunsealed : found.filter (fun file => !file.isSealed d) with _ | ⟨head, rest⟩
      · exact absurd hunsealed hsome
      have hfirst : ∀ envelope, ¬ env.Creates p d given head envelope := fun envelope hcreates =>
        hnot hpasses ⟨[], rest, hunsealed, by simp, hcreates⟩
      have hrefused : Triple (fun s => s = d) (env.sealFile p given head) (fun _ _ => False)
          (fun _ s => s = d) := by
        refine (sealFile_triple p env given head d).post (fun b s h => ?_) fun _ s h => ?_
        · rcases h with ⟨-, hgone⟩ | ⟨-, envelope, hcreates, -⟩
          · exact plain_of_unsealed hpasses.found (by simp [hunsealed]) hgone
          · exact hfirst envelope hcreates
        · rcases h with ⟨hs, -⟩ | ⟨envelope, hcreates, -⟩
          · exact hs
          · exact absurd hcreates (hfirst envelope)
      rw [hunsealed]
      exact ((hrefused.bind_never).bind_never).bind_never
  · refine createCommand_triple (fun _ => rfl)
      (fun bytes _ hplain => absurd (hplain.symm.trans hasked) (by simp))
      fun found given bytes hpasses hprepares hencrypts => ?_
    obtain ⟨rfl, rfl⟩ := hsame hpasses
    refine (sealNew_refused fun envelope hfresh => ?_).post (fun _ _ h => h.elim) fun _ _ h => h
    -- a creation that does not fail would be one of the command's
    by_contra hcreate
    exact hnot hpasses ⟨rfl, hprepares.createsNew hencrypts hfresh hcreate⟩

/-- A command that neither mixes passwords nor cuts a creation keeps to one password. -/
theorem Command.onePassword (c : Command) (hmixed : ¬ c.Mixed p env d) (hcut : ¬ c.Cut p env d) :
    c.OnePassword p env d := by
  have hrefuses : ∀ files password, c.tree d = .ok files → c.Asks env d files password →
      ¬ AllOpen p d files password →
      (∀ printed, (c.run p env d).1 ≠ .ok printed) ∧ (c.run p env d).2 = d := by
    intro files password htree hasks hall
    have hends := c.run_refuses hmixed htree hasks hall d rfl
    rcases hrun : c.run p env d with ⟨o, d'⟩
    rw [hrun] at hends
    rcases o with printed | e | w
    · exact hends.elim
    · exact ⟨fun _ => by simp, hends⟩
    · exact ⟨fun _ => by simp, hends⟩
  refine ⟨hrefuses, fun files htree hbefore => ?_⟩
  obtain ⟨x, hx⟩ := hbefore
  -- the sealed forms open under `y`, and no other password than `y` is given
  obtain ⟨y, hy, hgiven⟩ : ∃ y, AllOpen p d files y ∧
      ((∀ given, c.Asks env d files given → given = y) ∨ (c.run p env d).2 = d) := by
    by_cases hasks : ∃ given, c.Asks env d files given
    · obtain ⟨given, hgiven⟩ := hasks
      by_cases hall : AllOpen p d files given
      · exact ⟨given, hall, Or.inl fun other hother =>
          Except.ok.inj (hother.1.symm.trans hgiven.1)⟩
      · exact ⟨x, hx, Or.inr (hrefuses files given htree hgiven hall).2⟩
    · exact ⟨x, hx, Or.inl fun given hgiven => absurd ⟨given, hgiven⟩ hasks⟩
  refine ⟨y, fun file envelope hfile hthere => ?_⟩
  have hkeeps : KeepsForms p y d (c.run p env d).2 := by
    rcases hgiven with hgiven | hsame
    · exact c.run_keepsForms hcut htree hgiven
    · rw [hsame]
      exact KeepsForms.refl d
  rcases hkeeps file with hsame | hnone | hopens
  · -- a sealed form that has stayed was there before, in the tree
    have hbefore : d.node file.sealedPath = some (.file envelope) := hsame.symm.trans hthere
    have hin : Listed files file :=
      hfile.resolve_right fun hnew => absurd (hnew.symm.trans hbefore) (by simp)
    obtain ⟨kept, bytes, hnode, hopen⟩ := hy file envelope hin hbefore
    exact ⟨kept, bytes, hsame.trans hnode, hopen⟩
  · exact absurd (hnone.symm.trans hthere) (by simp)
  · exact hopens

/-- A command keeps the tree it finds under one password exactly when it neither mixes passwords
nor cuts a creation. -/
theorem onePassword_iff (p : EnvelopePrims) (env : CommandEnv) (c : Command)
    (nodes : List (Path × Node UInt8)) (hleft : env.LeavesNoOther p) :
    c.OnePassword p env (Disk.mount nodes) ↔
      ¬ c.Mixed p env (Disk.mount nodes) ∧ ¬ c.Cut p env (Disk.mount nodes) := by
  refine ⟨fun h => ?_, fun h => c.onePassword h.1 h.2⟩
  have hmixed : ¬ c.Mixed p env (Disk.mount nodes) := by
    rintro ⟨files, password, file, envelope, hpasses, hcreates, hall⟩
    have hsame := (h.refuses files password (discover_ok hpasses.found) (hcreates.asks hpasses)
      hall).2
    obtain ⟨path, hnone, htrace⟩ := Command.run_trace hpasses hcreates
    rw [hsame] at htrace
    exact htrace.elim (fun hthere => hthere hnone) fun hthere => hthere rfl
  refine ⟨hmixed, ?_⟩
  rintro ⟨files, password, file, envelope, stored, hpasses, hcreates, hstored, hcut⟩
  have hall : AllOpen p (Disk.mount nodes) files password := by
    by_contra hall
    exact hmixed ⟨files, password, file, envelope, hpasses, hcreates, hall⟩
  obtain ⟨bytes, hopen⟩ := hcreates.opens
  have hne : (env.steps file).left envelope ≠ some envelope := by
    intro hwhole
    obtain rfl : stored = envelope := Option.some.inj (hstored.symm.trans hwhole)
    exact hcut bytes hopen
  have hnode := Command.run_left hpasses hcreates hne
  rw [hstored] at hnode
  -- whatever opens what is left, the password given opens it too
  obtain ⟨y, hy⟩ := h.keeps files (discover_ok hpasses.found) ⟨password, hall⟩
  obtain ⟨kept, bytes', hkept, hopen'⟩ := hy file stored (Or.inr hcreates.absent) hnode
  obtain rfl : kept = stored := by simpa using hkept.symm.trans hnode
  obtain ⟨opened, hopened⟩ := hleft file envelope kept password y bytes bytes' hopen hstored hopen'
  exact hcut opened hopened

end Runs

/-! ## A tree that ends with two passwords -/

/-- `b.key`. -/
def otherFile : KeyFile := ⟨[[0x62, 0x2E, 0x6B, 0x65, 0x79]]⟩

/-- An envelope that opens under `password`, to one byte. -/
def sampleEnvelope (password : String) : Bytes :=
  0x7B :: ((sampleKey (utf8 password)).1.take 16 ++ [1])

/-- `a.key` in the clear, and `b.key` in both forms, sealed under "old". -/
def sampleTree : VaultDisk :=
  Disk.mount [(sampleFile.plain, .file [7, 8]), (otherFile.plain, .file [9]),
    (otherFile.sealedPath, .file (sampleEnvelope "old"))]

/-- `\xFF.key`. -/
def strangeFile : KeyFile := ⟨[[0xFF, 0x2E, 0x6B, 0x65, 0x79]]⟩

/-- `a.key` in the clear, and `\xFF.key.enc`, sealed under "old". -/
def strangeTree : VaultDisk :=
  Disk.mount [(sampleFile.plain, .file [7, 8]),
    (strangeFile.sealedPath, .file (sampleEnvelope "old"))]

/-- An environment in which `password` is typed and every seal goes as `steps` says. -/
def sampleEnv (password : String) (steps : SealFaults) : CommandEnv where
  scan := .ok
  password := .ok password
  reference := .none
  check _ := .none
  fastKdf := true
  draw _ := sampleDraw
  steps _ := steps
  prefixCheck := .ok ()
  account := .ok []

/-- `seal .` -/
def sealHere : Command := .seal ⟨[], false, none⟩

/-- A name that ends in `y` is not that of a sealed form. -/
theorem sealedPath_ne_key (file : KeyFile) (name : Bytes) : file.sealedPath ≠ [name ++ [0x79]] := by
  obtain ⟨dir, stem, hpath, -⟩ := file.sealedPath_parts
  intro h
  have hlast := (List.append_singleton_inj.mp (hpath.symm.trans h : _ = [] ++ [name ++ [0x79]])).2
  have hbyte := congrArg List.getLast? hlast
  simp [sealedSuffix] at hbyte

theorem not_opensUnder {d : VaultDisk} {password : String} {file : KeyFile} {envelope : Bytes}
    {e : EnvelopeError} (hnode : d.node file.sealedPath = some (.file envelope))
    (hclosed : decryptBytes p envelope password = .error e) : ¬ OpensUnder p d password file := by
  rintro ⟨other, bytes, hother, hopen⟩
  rw [hnode, Option.some.injEq, Node.file.injEq] at hother
  rw [← hother, hclosed] at hopen
  exact absurd hopen (by simp)

theorem allOpen_sampleTree :
    AllOpen samplePrims sampleTree [sampleFile, otherFile] "old" := by
  rintro file envelope (hfile | hfile) hthere
  · rcases List.mem_pair.mp hfile with rfl | rfl
    · have hnone : sampleTree.node sampleFile.sealedPath = none := by decide
      exact absurd (hnone.symm.trans hthere) (by simp)
    · exact ⟨sampleEnvelope "old", [1], by decide, by decide⟩
  · rcases List.mem_pair.mp hfile with h | h
    · exact absurd (congrArg KeyFile.plain h) (sealedPath_ne_key file [0x61, 0x2E, 0x6B, 0x65])
    · exact absurd (congrArg KeyFile.plain h) (sealedPath_ne_key file [0x62, 0x2E, 0x6B, 0x65])

/-- What opens is longer than the tag. -/
theorem length_of_decryptBytes_sample {stored bytes : Bytes} {password : String}
    (h : decryptBytes samplePrims stored password = .ok bytes) : 17 ≤ stored.length := by
  rcases stored with _ | ⟨b, ciphertext⟩
  · exact absurd h (by simp [decryptBytes, samplePrims, bind, Except.bind])
  by_cases hb : b = 0x7B
  · subst hb
    rw [decryptBytes_sample] at h
    split_ifs at h with htag
    have hlength := congrArg List.length htag
    simp [sampleKey, keyLen] at hlength
    simp
    omega
  · have hnot : samplePrims.fromSlice (b :: ciphertext) = .error "expected value" := by
      simp only [samplePrims]
      split
      · rename_i heq
        exact absurd (List.cons.inj heq).1 hb
      · rfl
    unfold decryptBytes at h
    rw [hnot] at h
    exact absurd h (by simp [bind, Except.bind])

/-- The tree keeps to its one password when that is the one given; and a write that stores three
bytes is a cut. -/
theorem onePassword_iff_sampleTree :
    sealHere.OnePassword samplePrims (sampleEnv "old" .ok) sampleTree ∧
    ¬ sealHere.OnePassword samplePrims (sampleEnv "new" { SealFaults.ok with write := .short 3 })
      (Disk.mount [(sampleFile.plain, .file [7, 8])]) := by
  constructor
  · have hleft : (sampleEnv "old" .ok).LeavesNoOther samplePrims := by
      intro file envelope stored password other bytes bytes' hopen hstored _
      obtain rfl : envelope = stored := Option.some.inj hstored
      exact ⟨bytes, hopen⟩
    refine (onePassword_iff samplePrims (sampleEnv "old" .ok) sealHere _ hleft).mpr ⟨?_, ?_⟩
    · rintro ⟨files, password, _, _, ⟨hfound, hgiven, -, -⟩, -, hall⟩
      have htree : sealHere.tree sampleTree = .ok [sampleFile, otherFile] := by decide
      have hok : sealHere.tree sampleTree = .ok files := discover_ok hfound
      have hfiles : files = [sampleFile, otherFile] := Outcome.ok.inj (hok.symm.trans htree)
      have hold : password = "old" := (Except.ok.inj hgiven).symm
      subst hfiles hold
      exact hall allOpen_sampleTree
    · rintro ⟨files, password, file, envelope, stored, -, hcreates, hstored, hcut⟩
      obtain rfl : envelope = stored := Option.some.inj hstored
      obtain ⟨bytes, hopen⟩ := hcreates.opens
      exact hcut bytes hopen
  · have hleft : (sampleEnv "new" { SealFaults.ok with write := .short 3 }).LeavesNoOther
        samplePrims := by
      intro file envelope stored password other bytes bytes' hopen hstored hother
      obtain rfl : envelope.take 3 = stored := Option.some.inj hstored
      have hlong := length_of_decryptBytes_sample hother
      rw [List.length_take] at hlong
      omega
    intro h
    refine ((onePassword_iff samplePrims _ sealHere _ hleft).mp h).2
      ⟨[sampleFile], "new", sampleFile, 0x7B :: ((sampleKey (utf8 "new")).1.take 16 ++ [7, 8]), _,
        ⟨by decide, rfl, fun path hpath => absurd hpath (by simp [sealHere, Command.reference]),
          ?_⟩,
        ⟨[], [], by decide, by simp, ⟨[7, 8], by decide, by decide⟩, by decide, rfl,
          by simp [sampleEnv, SealFaults.ok]⟩, rfl, fun bytes hopen => ?_⟩
    · intro file hfile hsealed
      rw [List.mem_singleton.mp hfile] at hsealed
      exact absurd hsealed (by decide)
    · exact absurd (length_of_decryptBytes_sample hopen) (by decide)

/-- With "new" typed, `a.key` is sealed under it before the loop stops at `b.key`: the command
fails with the tree changed, and no password opens what is sealed in it. The same goes for a sealed
form whose name is not UTF-8, which the check takes for a plaintext. And a write that is cut short
leaves a sealed form that no password opens, in a tree that had none. -/
theorem onePassword_fails :
    ¬ sealHere.OnePassword samplePrims (sampleEnv "new" .ok) sampleTree ∧
    (AllOpen samplePrims sampleTree [sampleFile, otherFile] "old" ∧
      ∀ y, ¬ AllOpen samplePrims (sealHere.run samplePrims (sampleEnv "new" .ok) sampleTree).2
        [sampleFile, otherFile] y) ∧
    ¬ sealHere.OnePassword samplePrims (sampleEnv "new" .ok) strangeTree ∧
    ¬ sealHere.OnePassword samplePrims (sampleEnv "new" { SealFaults.ok with write := .short 0 })
      (Disk.mount [(sampleFile.plain, .file [7, 8])]) := by
  have hclosed : decryptBytes samplePrims (sampleEnvelope "old") "new" = .error .decryption := by
    decide
  have hnew : (sealHere.run samplePrims (sampleEnv "new" .ok) sampleTree).2.node
      sampleFile.sealedPath
        = some (.file (0x7B :: ((sampleKey (utf8 "new")).1.take 16 ++ [7, 8]))) := by decide
  have hold : (sealHere.run samplePrims (sampleEnv "new" .ok) sampleTree).2.node
      otherFile.sealedPath = some (.file (sampleEnvelope "old")) := by decide
  refine ⟨fun h => ?_, ⟨allOpen_sampleTree, fun y hall => ?_⟩, fun h => ?_, fun h => ?_⟩
  · have hrefused : ¬ AllOpen samplePrims sampleTree [sampleFile, otherFile] "new" := fun hall =>
      not_opensUnder (by decide) hclosed
        (hall otherFile (sampleEnvelope "old") (Or.inl (by simp)) (by decide))
    have hsame := (h.refuses [sampleFile, otherFile] "new" (by decide)
      ⟨rfl, sampleFile, by simp, by decide⟩ hrefused).2
    rw [hsame] at hnew
    exact absurd hnew (by decide)
  · -- both envelopes would carry the tag of `y`
    obtain ⟨first, bytes, hnode, hopen⟩ := hall sampleFile _ (Or.inl (by simp)) hnew
    obtain ⟨second, bytes', hnode', hopen'⟩ := hall otherFile _ (Or.inl (by simp)) hold
    rw [hnew, Option.some.injEq, Node.file.injEq] at hnode
    rw [hold, Option.some.injEq, Node.file.injEq] at hnode'
    rw [← hnode, decryptBytes_sample] at hopen
    rw [← hnode', sampleEnvelope, decryptBytes_sample] at hopen'
    split_ifs at hopen with htag
    split_ifs at hopen' with htag'
    exact absurd (htag.trans htag'.symm) (by decide)
  · have hrefused : ¬ AllOpen samplePrims strangeTree [sampleFile, ⟨strangeFile.sealedPath⟩]
        "new" := fun hall =>
      not_opensUnder (by decide) hclosed
        (hall strangeFile (sampleEnvelope "old") (Or.inr (by simp)) (by decide))
    have hsame := (h.refuses [sampleFile, ⟨strangeFile.sealedPath⟩] "new" (by decide)
      ⟨rfl, sampleFile, by simp, by decide⟩ hrefused).2
    have hsealed : (sealHere.run samplePrims (sampleEnv "new" .ok) strangeTree).2.node
        sampleFile.sealedPath ≠ none := by decide
    rw [hsame] at hsealed
    exact hsealed (by decide)
  · have hempty : (sealHere.run samplePrims
        (sampleEnv "new" { SealFaults.ok with write := .short 0 })
        (Disk.mount [(sampleFile.plain, .file [7, 8])])).2.node sampleFile.sealedPath
          = some (.file []) := by decide
    have hbefore : AllOpen samplePrims (Disk.mount [(sampleFile.plain, .file [7, 8])])
        [sampleFile] "new" := by
      rintro file envelope (hfile | hfile) hthere
      · have hnone : (Disk.mount [(sampleFile.plain, .file [7, 8])] : VaultDisk).node
            sampleFile.sealedPath = none := by decide
        rw [List.mem_singleton.mp hfile] at hthere
        exact absurd (hnone.symm.trans hthere) (by simp)
      · rw [List.mem_singleton] at hfile
        exact absurd (congrArg KeyFile.plain hfile)
          (sealedPath_ne_key file [0x61, 0x2E, 0x6B, 0x65])
    obtain ⟨y, hy⟩ := h.keeps [sampleFile] (by decide) ⟨"new", hbefore⟩
    obtain ⟨envelope, bytes, hnode, hopen⟩ :=
      hy sampleFile [] (Or.inl (Or.inl (by simp))) hempty
    rw [hempty, Option.some.injEq, Node.file.injEq] at hnode
    rw [← hnode] at hopen
    exact absurd (length_of_decryptBytes_sample hopen) (by decide)

end BlockchainOps.AccountVault
