import BlockchainOps.AccountVault.CommandsTheorems
import BlockchainOps.AccountVault.DiscoveryTheorems
import BlockchainOps.AccountVault.Reencrypt
import BlockchainOps.AccountVault.SealResidue
import BlockchainOps.Lib.Machine

/-!
# A vault over its life

A vault's disk goes through commands, each given its own password and meeting its own faults, and
through losses of power, which may come between any two steps: a command that crashes ends where it
is. `Held` says that a key file's key is safe on a disk, and every event keeps it
(`run_held`), since a seal removes a plaintext only after its envelope is settled, no command
writes where something stands, and the key files that a scan finds have no path in common
(`KeyFile.Named.apart_of_scanned`).

`vault_keeps_keys` says it in terms of `Vault.open`.
-/

namespace BlockchainOps.AccountVault

open Effect Proc Storage

/-! ## What happens to the disk -/

/-- A command, however it goes, or a loss of power and what is found after it. -/
inductive VaultEvent
  | command (env : CommandEnv) (c : Command)
  | powerLoss (found : List (Path × Node UInt8))

/-- The disk of a vault, from event to event. -/
def vaultMachine (p : EnvelopePrims) : Machine VaultDisk VaultEvent where
  step d
    | .command env c => some (c.run p env d).2
    | .powerLoss found => some (Disk.mount found)

/-- What may happen to the disk `d` while only `passwords` are typed. -/
def VaultEvent.Possible (passwords : Set String) (d : VaultDisk) : VaultEvent → Prop
  | .command env _ => ∀ password, env.password = .ok password → password ∈ passwords
  | .powerLoss found => d.CrashImage (Disk.mount found).node

/-- Events lead from one disk to another while only `passwords` are typed. -/
abbrev VaultRun (p : EnvelopePrims) (passwords : Set String) : VaultDisk → VaultDisk → Prop :=
  (vaultMachine p).Run (VaultEvent.Possible passwords)

/-! ## The paths of key files -/

/-- A key file as a scan names it: in UTF-8, with a key file's extension. -/
structure KeyFile.Named (file : KeyFile) : Prop where
  isStr : pathIsStr file.plain = true
  isPlainName : IsPlainName (file.plain.getLast?.getD [])

theorem IsPlainName.ne_sealed {plain : Bytes} (h : IsPlainName plain) (name : Bytes) :
    plain ≠ name ++ sealedSuffix := by
  intro heq
  have hdrop := h.dropSuffix
  rw [heq, dropSuffix_append_sealedSuffix] at hdrop
  exact absurd hdrop (by simp)

namespace KeyFile.Named

variable {file other : KeyFile}

theorem parts (h : file.Named) : ∃ dir name, file.plain = dir ++ [name] ∧ IsPlainName name := by
  rcases List.eq_nil_or_concat' file.plain with hnil | ⟨dir, name, hparts⟩
  · have hname := h.isPlainName
    rw [hnil] at hname
    obtain ⟨e, -, he⟩ := hname
    exact absurd he (by simp [extension])
  · have hname := h.isPlainName
    rw [hparts, List.getLast?_concat] at hname
    exact ⟨dir, name, hparts, hname⟩

theorem plain_ne_sealedPath (h : file.Named) (other : KeyFile) :
    file.plain ≠ other.sealedPath := by
  obtain ⟨dir, name, hparts, hname⟩ := h.parts
  obtain ⟨dir', name', hsealed, -⟩ := other.sealedPath_parts
  rw [hparts, hsealed]
  intro heq
  exact hname.ne_sealed name' (List.append_singleton_inj.mp heq).2

/-- A key file with a proper name is known by its sealed path. -/
theorem sealedPath_inj (h : file.Named) (heq : file.sealedPath = other.sealedPath) :
    other = file := by
  obtain ⟨dir, name, hparts, hname⟩ := h.parts
  obtain ⟨dir', name', hsealed, hother⟩ := other.sealedPath_parts
  have hfile : file.sealedPath = dir ++ [name ++ sealedSuffix] := by
    obtain ⟨plain⟩ := file
    obtain rfl : plain = dir ++ [name] := hparts
    exact sealedPath_append dir name
  rw [hfile, hsealed] at heq
  obtain ⟨rfl, hnames⟩ := List.append_singleton_inj.mp heq
  obtain rfl := List.append_cancel_right hnames
  rcases hother with hother | ⟨-, rfl⟩
  · obtain ⟨plain⟩ := other
    obtain ⟨plain'⟩ := file
    exact congrArg KeyFile.mk (hother.trans hparts.symm)
  · obtain ⟨e, -, he⟩ := hname
    exact absurd he (by simp [extension])

theorem sealedPath_isStr (h : file.Named) : pathIsStr file.sealedPath = true := by
  obtain ⟨dir, name, hparts, -⟩ := h.parts
  obtain ⟨plain⟩ := file
  obtain rfl : plain = dir ++ [name] := hparts
  rw [sealedPath_append, pathIsStr_append_sealedSuffix]
  exact h.isStr

theorem apart (h : file.Named) (hne : other ≠ file) (hsealed : file.sealedPath ≠ other.plain) :
    file.Apart other where
  plain_plain heq := hne (by
    obtain ⟨plain⟩ := file
    obtain ⟨plain'⟩ := other
    exact congrArg KeyFile.mk heq.symm)
  plain_sealed := h.plain_ne_sealedPath other
  sealed_plain := hsealed
  sealed_sealed heq := hne (h.sealedPath_inj heq)

/-- What a scan finds beside a key file has no path in common with it. -/
theorem apart_of_scanned (h : file.Named) {path : Path}
    (hpath : isKeyFileName (path.getLast?.getD []) = true) (hne : KeyFile.at path ≠ file) :
    file.Apart (KeyFile.at path) := by
  refine h.apart hne fun heq => ?_
  by_cases hstr : pathIsStr path = true
  · obtain ⟨dir, plain, hplain, hform, -⟩ := path_cases hpath
    obtain ⟨dir', name, hsealed, -⟩ := file.sealedPath_parts
    rw [at_of_isStr hstr, hform, hsealed] at heq
    exact hplain.ne_sealed name (List.append_singleton_inj.mp heq).2.symm
  · -- a path that is not UTF-8 is no sealed path of a file that is
    rw [at_of_not_isStr hstr] at heq
    have hpath : file.sealedPath = path := heq
    exact hstr (hpath ▸ h.sealedPath_isStr)

/-- A new account's file has no path in common with another key file. -/
theorem apart_of_account (h : file.Named)
    (haccount : extension (other.plain.getLast?.getD []) = some accountExtension)
    (hne : other ≠ file) : file.Apart other :=
  h.apart hne (sealedPath_ne_account haccount file)

end KeyFile.Named

/-! ## What the operations leave of other key files -/

section Frames

variable {p : EnvelopePrims} {fastKdf : Bool} {draw : Draw} {v : Vault} {file : KeyFile} {q : Path}

theorem writePrivate_notRemoved (f : WriteFaults) (path : Path) (bytes : Bytes) (q : Path) :
    Respects (Disk.NotRemoved q) (writePrivate f path bytes) :=
  (Respects.mapErr (createNew_notRemoved _ q)).bind fun _ =>
    (Respects.mapErr (writeAll_respects _ _ fun _ _ => Disk.notRemoved_put _ q)).bind fun _ =>
      Respects.mapErr (syncAll_notRemoved _ q)

theorem sealNew_sameAt {f : StoreFaults} (bytes : Bytes) (h : q ≠ file.sealedPath) :
    Respects (Disk.SameAt q) (Vault.sealNew p fastKdf draw f v file bytes) :=
  (Respects.ofExcept _).bind fun _ =>
    (Respects.of_eq (refuseExisting_respects file)).bind fun _ =>
      (Respects.ofExcept _).bind fun envelope =>
        (writeChecked_sameAt envelope _ h).bind fun _ => Respects.pure _

theorem writeNewPlain_sameAt {f : WriteFaults} (bytes : Bytes) (h : q ≠ file.plain) :
    Respects (Disk.SameAt q) (writeNewPlain f file bytes) :=
  (Respects.of_eq (refuseExisting_respects file)).bind fun _ =>
    (writePrivate_sameAt bytes h).bind fun _ => Respects.pure _

theorem writeNewPlain_notRemoved (f : WriteFaults) (file : KeyFile) (bytes : Bytes) (q : Path) :
    Respects (Disk.NotRemoved q) (writeNewPlain f file bytes) :=
  (Respects.of_eq (refuseExisting_respects file)).bind fun _ =>
    (writePrivate_notRemoved f file.plain bytes q).bind fun _ => Respects.pure _

theorem refuseExisting_of_exists {d : VaultDisk} (h : file.exists d = true) :
    refuseExisting file d = (.err (.existsAlready file.plain), d) := by
  unfold refuseExisting
  rw [bind_of_ok (get_apply d), if_pos h]
  rfl

/-- A new key file does not touch one that exists. -/
theorem sealNew_of_exists {f : StoreFaults} {d : VaultDisk} {password : String} (bytes : Bytes)
    (h : file.exists d = true) :
    (Vault.sealNew p fastKdf draw f (Vault.withPassword password) file bytes d).2 = d := by
  have hpw : (ofExcept (Vault.withPassword password).requiredPassword : Proc VaultDisk VaultError
      String) d = (.ok password, d) := rfl
  unfold Vault.sealNew
  rw [bind_of_ok hpw, bind_of_err (refuseExisting_of_exists h)]

theorem writeNewPlain_of_exists {f : WriteFaults} {d : VaultDisk} (bytes : Bytes)
    (h : file.exists d = true) : (writeNewPlain f file bytes d).2 = d := by
  unfold writeNewPlain
  rw [bind_of_err (refuseExisting_of_exists h)]

end Frames

/-! ## What a key file opens to -/

section Stored

variable {p : EnvelopePrims} {password : String} {file : KeyFile} {key : Bytes} {d : VaultDisk}

/-- What is stored of the file gives `key`: it decrypts to it under `password`, or is it in the
clear. -/
def StoredAs (p : EnvelopePrims) (password : String) (file : KeyFile) (d : VaultDisk)
    (key : Bytes) : Prop :=
  ∃ content, storedForm d file = some content ∧
    (decryptBytes p content password = .ok key ∨ (IsPlainFile p d file ∧ content = key))

/-- What is stored is opened by a vault that has the password, or whose caller answers it. -/
theorem vaultOpen_of_stored {κ : Type} (prompt : Proc κ VaultError String) (v : Vault) (caller : κ)
    (h : StoredAs p password file d key)
    (hv : v = .withPassword password ∨ (v = .new ∧ prompt caller = (.ok password, caller))) :
    ∃ wasSealed, Vault.open p prompt .none file ⟨v, caller, d⟩
      = (.ok ⟨key, wasSealed⟩, ⟨if wasSealed then .withPassword password else v, caller, d⟩) := by
  obtain ⟨content, hstored, hgives⟩ := h
  have hdecrypt : ∀ path, decryptBytes p content password = .ok key →
      Vault.decrypt p prompt path content ⟨v, caller, d⟩
        = (.ok ⟨key, true⟩, ⟨.withPassword password, caller, d⟩) := by
    intro path hopens
    rcases hv with rfl | ⟨rfl, hprompt⟩
    · exact decrypt_of_password hopens
    · have hasked : Session.onCaller prompt (⟨.new, caller, d⟩ : Session κ)
          = (.ok password, ⟨.new, caller, d⟩) := by
        unfold Session.onCaller
        rw [hprompt]
      unfold Vault.decrypt
      rw [bind_of_ok (get_apply _)]
      refine (bind_of_ok hasked).trans ?_
      rw [hopens]
      rfl
  -- the plaintext's path is tried first, and the sealed path where nothing stands at it
  unfold Vault.open
  rw [bind_of_ok (get_apply _)]
  unfold storedForm at hstored
  rcases hplain : d.node file.plain with _ | _ | content'
  · rw [hplain] at hstored
    rcases hsealed : d.node file.sealedPath with _ | _ | envelope
    · rw [hsealed] at hstored
      exact absurd hstored (by simp)
    · rw [hsealed] at hstored
      exact absurd hstored (by simp)
    · rw [hsealed] at hstored
      obtain rfl : envelope = content := Option.some.inj hstored
      have hopens : decryptBytes p envelope password = .ok key := by
        rcases hgives with hopens | ⟨⟨content', hclear, -⟩, -⟩
        · exact hopens
        · exact absurd (hplain.symm.trans hclear) (by simp)
      rw [if_neg (by simp [pathExists_eq_false.mpr hplain]),
        if_pos (pathExists_eq_true.mpr (by simp [hsealed])), bind_of_ok (onDisk_readFile hsealed)]
      exact ⟨true, hdecrypt _ hopens⟩
  · rw [hplain] at hstored
    exact absurd hstored (by simp)
  · rw [hplain] at hstored
    obtain rfl : content' = content := Option.some.inj hstored
    rw [if_pos (pathExists_eq_true.mpr (by simp [hplain])), bind_of_ok (onDisk_readFile hplain)]
    -- an envelope at the plaintext's path is decrypted like a sealed one
    rcases hgives with hopens | ⟨⟨content, hcontent, hmark⟩, rfl⟩
    · rw [if_pos (isEncryptedEnvelope_of_decryptBytes hopens)]
      exact ⟨true, hdecrypt _ hopens⟩
    · obtain rfl : content' = content := by simpa [hplain] using hcontent
      rw [if_neg (by simp [hmark])]
      exact ⟨false, rfl⟩

theorem opensTo_iff : OpensTo p password file d key ↔ StoredAs p password file d key := by
  constructor
  · intro h
    obtain ⟨wasSealed, hrun⟩ := h Unit (raise .noPassword) ()
    obtain ⟨-, ⟨-, content, password', hstored, hsame, hopens⟩ | ⟨-, hstored, hclear, -⟩⟩ :=
      vaultOpen_ok p _ hrun
    · obtain rfl : password = password' := Option.some.inj hsame
      exact ⟨content, hstored, Or.inl hopens⟩
    · exact ⟨key, hstored, Or.inr ⟨hclear, rfl⟩⟩
  · intro h κ prompt caller
    obtain ⟨wasSealed, hrun⟩ := vaultOpen_of_stored prompt (.withPassword password) caller h
      (Or.inl rfl)
    exact ⟨wasSealed, by simpa using hrun⟩

end Stored

/-! ## A key that is safe -/

section Held

variable {p : EnvelopePrims} {passwords : Set String} {file other : KeyFile} {key : Bytes}
  {d d' : VaultDisk}

/-- A plaintext file with the content `content` opens to `key` under one of `passwords`: it may hold
an envelope. -/
def Readable (p : EnvelopePrims) (passwords : Set String) (key content : Bytes) : Prop :=
  ∃ password ∈ passwords, decryptBytes p content password = .ok key ∨
    (isEncryptedEnvelope p content = false ∧ content = key)

/-- The key of a key file is safe on the disk: one of its forms opens to it under one of
`passwords` and stays through a loss of power, which brings nothing else back. -/
inductive Held (p : EnvelopePrims) (passwords : Set String) (file : KeyFile) (key : Bytes)
    (d : VaultDisk) : Prop
  | plain {content : Bytes} (reads : Readable p passwords key content)
    (node : d.node file.plain = some (.file content))
    (settled : d.unsettledAt file.plain = none) : Held p passwords file key d
  | sealedForm {envelope : Bytes} {password : String} (typed : password ∈ passwords)
    (opens : decryptBytes p envelope password = .ok key)
    (node : d.node file.sealedPath = some (.file envelope))
    (settled : d.unsettledAt file.sealedPath = none) (gone : d.node file.plain = none)
    -- a removal that is not settled may be undone, which brings back what opens as well
    (back : ∀ change, d.unsettledAt file.plain = some change →
      ∃ content, change = .removal (.file content) ∧ Readable p passwords key content) :
    Held p passwords file key d

namespace Held

theorem of_sameAt (h : Held p passwords file key d) (hplain : d.SameAt file.plain d')
    (hsealed : d.SameAt file.sealedPath d') : Held p passwords file key d' := by
  cases h with
  | plain reads node settled => exact .plain reads (hplain.1.trans node) (hplain.2.trans settled)
  | sealedForm typed opens node settled gone back =>
    refine .sealedForm typed opens (hsealed.1.trans node) (hsealed.2.trans settled)
      (hplain.1.trans gone) ?_
    rw [hplain.2]
    exact back

theorem fileExists (h : Held p passwords file key d) : file.exists d = true := by
  unfold KeyFile.exists
  rw [Bool.or_eq_true]
  cases h with
  | plain _ node _ => exact Or.inl (pathExists_eq_true.mpr (by simp [node]))
  | sealedForm _ _ node _ _ _ => exact Or.inr (pathExists_eq_true.mpr (by simp [node]))

/-- A key that is safe is stored. -/
theorem storedAs (h : Held p passwords file key d) :
    ∃ password ∈ passwords, StoredAs p password file d key := by
  cases h with
  | sealedForm typed opens node _ gone _ =>
    exact ⟨_, typed, _, by simp only [storedForm, gone, node], Or.inl opens⟩
  | plain reads node _ =>
    obtain ⟨password, typed, hreads⟩ := reads
    exact ⟨password, typed, _, by simp only [storedForm, node],
      hreads.imp id fun hclear => ⟨⟨_, node, hclear.1⟩, hclear.2⟩⟩

/-- What opens on a disk as it is found is safe there. -/
theorem of_opensTo {nodes : List (Path × Node UInt8)} {password : String}
    (htyped : password ∈ passwords) (h : OpensTo p password file (Disk.mount nodes) key) :
    Held p passwords file key (Disk.mount nodes) := by
  obtain ⟨content, hstored, hreads⟩ := opensTo_iff.mp h
  unfold storedForm at hstored
  rcases hplain : (Disk.mount nodes).node file.plain with _ | _ | content'
  · rw [hplain] at hstored
    -- no plaintext is there, so the key was not read in the clear
    have hopens : decryptBytes p content password = .ok key := by
      rcases hreads with hopens | ⟨⟨content', hclear, -⟩, -⟩
      · exact hopens
      · exact absurd (hplain.symm.trans hclear) (by simp)
    rcases hsealed : (Disk.mount nodes).node file.sealedPath with _ | _ | envelope
    · rw [hsealed] at hstored
      exact absurd hstored (by simp)
    · rw [hsealed] at hstored
      exact absurd hstored (by simp)
    · rw [hsealed] at hstored
      obtain rfl : envelope = content := Option.some.inj hstored
      exact .sealedForm htyped hopens hsealed rfl hplain fun change hchange =>
        absurd hchange (by simp)
  · rw [hplain] at hstored
    exact absurd hstored (by simp)
  · rw [hplain] at hstored
    obtain rfl : content' = content := Option.some.inj hstored
    refine .plain ⟨password, htyped, hreads.imp id fun hclear => ?_⟩ hplain rfl
    obtain ⟨⟨content, hcontent, hmark⟩, hkey⟩ := hclear
    obtain rfl : content' = content := by simpa [hplain] using hcontent
    exact ⟨hmark, hkey⟩

/-- A loss of power leaves a key safe. -/
theorem powerLoss (h : Held p passwords file key d) {found : List (Path × Node UInt8)}
    (himage : d.CrashImage (Disk.mount found).node) :
    Held p passwords file key (Disk.mount found) := by
  cases h with
  | plain reads node settled =>
    have hplain : (Disk.mount found).node file.plain = d.node file.plain := himage.settled settled
    exact .plain reads (hplain.trans node) rfl
  | sealedForm typed opens node settled gone back =>
    have hsealed : (Disk.mount found).node file.sealedPath = d.node file.sealedPath :=
      himage.settled settled
    have hplain := himage file.plain
    -- the plaintext is gone for good, or its removal was undone
    rcases hchange : d.unsettledAt file.plain with _ | change
    · rw [hchange] at hplain
      exact .sealedForm typed opens (hsealed.trans node) rfl (hplain.trans gone) fun _ h =>
        absurd h (by simp)
    · obtain ⟨content, rfl, hreads⟩ := back change hchange
      rw [hchange] at hplain
      rcases hplain with hnone | hback
      · exact .sealedForm typed opens (hsealed.trans node) rfl hnone fun _ h => absurd h (by simp)
      · exact .plain hreads hback rfl

end Held

/-- In every stage of a seal a key that was safe is safe. -/
theorem SealStage.held {fastKdf : Bool} {draw : Draw} {f : SealFaults} {password : String}
    {content envelope : Bytes} (h : Held p passwords file key d) (htyped : password ∈ passwords)
    (hcontent : d.node file.plain = some (.file content))
    (henvelope : sealedEnvelope p fastKdf draw password file.plain content = .ok envelope)
    (hstage : SealStage f d file envelope d') : Held p passwords file key d' := by
  have hne : file.plain ≠ file.sealedPath := (file.sealedPath_ne_plain).symm
  cases h with
  | sealedForm _ _ _ _ gone _ => exact absurd (gone.symm.trans hcontent) (by simp)
  | plain reads node settled =>
    obtain rfl : content = _ := by simpa [hcontent] using node
    have hstored : d.SameAt file.plain ((d.put file.sealedPath envelope).settle file.sealedPath) :=
      trans_of (Disk.SameAt file.plain) (Disk.sameAt_put envelope hne) (Disk.sameAt_settle hne)
    -- the plaintext is what opens until it is removed, and then the settled envelope is
    cases hstage with
    | storing d' hleft =>
      obtain ⟨hsame, hsettled⟩ := hleft.node_of_ne hne
      exact .plain reads (hsame.trans node) (hsettled.trans settled)
    | stored => exact .plain reads (hstored.1.trans node) (hstored.2.trans settled)
    | removed =>
      -- the envelope opens to the key, under the password typed or the one that opened it before
      obtain ⟨opener, hopener, hopens⟩ :
          ∃ opener ∈ passwords, decryptBytes p envelope opener = .ok key := by
        obtain ⟨before, hbefore, hreads⟩ := reads
        rcases sealedEnvelope_opens henvelope with ⟨hmark, rfl, -⟩ | ⟨hmark, hfresh⟩
        · rcases hreads with hopens | ⟨hclear, -⟩
          · exact ⟨before, hbefore, hopens⟩
          · exact absurd (hmark.symm.trans hclear) (by simp)
        · rcases hreads with hopens | ⟨-, rfl⟩
          · exact absurd (hmark.symm.trans (isEncryptedEnvelope_of_decryptBytes hopens)) (by simp)
          · exact ⟨password, htyped, hfresh⟩
      refine .sealedForm hopener hopens ?_ ?_ (Disk.node_drop_self _ _) fun change hchange => ?_
      · rw [Disk.node_drop, if_neg hne.symm, Disk.node_settle, Disk.node_put_self]
      · rw [Disk.unsettledAt_drop_of_ne _ hne.symm, Disk.unsettledAt_settle, if_pos rfl]
      · rw [Disk.unsettledAt_drop_self (hstored.1.trans node) (hstored.2.trans settled)] at hchange
        exact ⟨content, (Option.some.inj hchange).symm, reads⟩

end Held

/-! ## What a command keeps -/

/-- A key file that a scan may find. -/
def KeyFile.Scanned (file : KeyFile) : Prop :=
  ∃ path, isKeyFileName (path.getLast?.getD []) = true ∧ file = KeyFile.at path

/-- A property of the disk that every way a command changes it keeps. -/
structure CommandKeeps (p : EnvelopePrims) (env : CommandEnv) (I : VaultDisk → Prop) : Prop where
  ofSeal : ∀ password other d, env.password = .ok password → other.Scanned → I d →
    I (Vault.seal p env.fastKdf (env.draw other) (env.steps other) (Vault.withPassword password)
      other d).2
  ofSealNew : ∀ password (other : KeyFile) bytes d, env.password = .ok password →
    extension (other.plain.getLast?.getD []) = some accountExtension → I d →
    I (Vault.sealNew p env.fastKdf (env.draw other) (env.steps other).toStoreFaults
      (Vault.withPassword password) other bytes d).2
  ofWriteNewPlain : ∀ (other : KeyFile) bytes d,
    extension (other.plain.getLast?.getD []) = some accountExtension → I d →
    I (writeNewPlain (env.steps other).toWriteFaults other bytes d).2

namespace CommandKeeps

variable {p : EnvelopePrims} {env : CommandEnv} {I : VaultDisk → Prop} {d : VaultDisk}

theorem sealFiles (h : CommandKeeps p env I) {password : String}
    (hpassword : env.password = .ok password) {files : List KeyFile}
    (hfiles : ∀ file ∈ files, file.Scanned) :
    Triple I (AccountVault.sealFiles p env (Vault.withPassword password) files)
      (fun _ => I) (fun _ => I) := by
  -- along the loop, what is left to seal came from the scan
  have hloop := Triple.forEach (E := fun _ => I)
    (I := fun rest d => (∀ file ∈ rest, file.Scanned) ∧ I d)
    (f := fun file => do
      if ← (Vault.withPassword password).seal p env.fastKdf (env.draw file) (env.steps file) file
        then pure [file.sealedPath]
      else pure []) ?_ files
  · exact (hloop.pre fun d hd => ⟨hfiles, hd⟩).bind fun printed => Triple.pure fun d hd => hd.2
  intro file rest
  refine Triple.of_fact fun hscanned => ?_
  have hseal : Triple I ((Vault.withPassword password).seal p env.fastKdf (env.draw file)
      (env.steps file) file) (fun _ => I) (fun _ => I) := fun d hd =>
    Triple.ends_of_last (h.ofSeal password file d hpassword (hscanned file List.mem_cons_self) hd)
  refine hseal.bind fun b => ?_
  have hrest : ∀ other ∈ rest, other.Scanned := fun other hother =>
    hscanned other (List.mem_cons_of_mem file hother)
  cases b <;> exact Triple.pure fun d hd => ⟨hrest, hd⟩

theorem sealCommand (h : CommandKeeps p env I) (args : SealArgs) (hI : I d) :
    Triple (fun s => s = d) (AccountVault.sealCommand p env args) (fun _ => I) (fun _ => I) := by
  refine sealCommand_triple (fun _ => hI) (fun _ _ _ => hI) fun found given hpasses _ => ?_
  refine (h.sealFiles hpasses.given fun file hfile => ?_).pre fun d' hd => hd ▸ hI
  obtain ⟨path, hin, hat⟩ :=
    ((discover_finds hpasses.found).2 file).mp (List.mem_filter.mp hfile).1
  exact ⟨path, hin.isKeyFileName, hat⟩

theorem createCommand (h : CommandKeeps p env I) (args : CreateArgs) (hI : I d) :
    Triple (fun s => s = d) (AccountVault.createCommand p env args) (fun _ => I) (fun _ => I) := by
  refine createCommand_triple (fun _ => hI) (fun bytes hprepares _ => ?_)
    fun _ given bytes hpasses hprepares _ => ?_
  · exact Triple.of_eq (Triple.ends_of_last (h.ofWriteNewPlain _ bytes d hprepares.name hI))
  · exact Triple.of_eq (Triple.ends_of_last
      (h.ofSealNew given _ bytes d hpasses.given hprepares.name hI))

/-- What a command's changes keep, the command keeps, however it ends. -/
theorem run (h : CommandKeeps p env I) (c : Command) (hI : I d) : I (c.run p env d).2 := by
  rcases c with args | args
  · exact (h.sealCommand args hI).last rfl
  · exact (h.createCommand args hI).last rfl

end CommandKeeps

section Kept

variable {p : EnvelopePrims} {env : CommandEnv} {passwords : Set String} {file : KeyFile}
  {key : Bytes} {d d' : VaultDisk}

/-- What is about one key file's paths is kept by the commands if their changes to that file keep
it: whatever else they write has no path in common with it. -/
theorem CommandKeeps.of_local {I : VaultDisk → Prop} (hnamed : file.Named)
    (hlocal : ∀ d d', I d → d.SameAt file.plain d' → d.SameAt file.sealedPath d' → I d')
    (hseal : ∀ password d, env.password = .ok password → I d →
      I (Vault.seal p env.fastKdf (env.draw file) (env.steps file) (Vault.withPassword password)
        file d).2)
    (hsealNew : ∀ password bytes d, I d →
      I (Vault.sealNew p env.fastKdf (env.draw file) (env.steps file).toStoreFaults
        (Vault.withPassword password) file bytes d).2)
    (hwrite : ∀ bytes d, I d → I (writeNewPlain (env.steps file).toWriteFaults file bytes d).2) :
    CommandKeeps p env I where
  ofSeal password other d hpassword hscanned h := by
    by_cases hsame : other = file
    · subst hsame
      exact hseal password d hpassword h
    · obtain ⟨path, hpath, rfl⟩ := hscanned
      have hapart := hnamed.apart_of_scanned hpath hsame
      exact hlocal d _ h (seal_sameAt hapart.plain_plain hapart.plain_sealed d)
        (seal_sameAt hapart.sealed_plain hapart.sealed_sealed d)
  ofSealNew password other bytes d hpassword haccount h := by
    by_cases hsame : other = file
    · subst hsame
      exact hsealNew password bytes d h
    · have hapart := hnamed.apart_of_account haccount hsame
      exact hlocal d _ h (sealNew_sameAt bytes hapart.plain_sealed d)
        (sealNew_sameAt bytes hapart.sealed_sealed d)
  ofWriteNewPlain other bytes d haccount h := by
    by_cases hsame : other = file
    · subst hsame
      exact hwrite bytes d h
    · have hapart := hnamed.apart_of_account haccount hsame
      exact hlocal d _ h (writeNewPlain_sameAt bytes hapart.plain_plain d)
        (writeNewPlain_sameAt bytes hapart.sealed_plain d)

/-- A seal of the file keeps its key safe. -/
theorem seal_held {password : String} (htyped : password ∈ passwords)
    (h : Held p passwords file key d) :
    Held p passwords file key (Vault.seal p env.fastKdf (env.draw file) (env.steps file)
      (Vault.withPassword password) file d).2 := by
  refine Triple.last (P := fun s => s = d) (I := Held p passwords file key) ?_ rfl
  refine (seal_triple p env.fastKdf (env.draw file) (env.steps file) password file d).post
    (fun b d' hend => ?_) fun e d' hend => ?_
  · rcases hend with ⟨-, rfl, -⟩ | ⟨-, content, envelope, hcontent, -, henvelope, rfl⟩
    · exact h
    · exact SealStage.held (f := env.steps file) h htyped hcontent henvelope .removed
  · rcases hend with rfl | ⟨content, envelope, hcontent, henvelope, hstage⟩
    · exact h
    · exact hstage.held h htyped hcontent henvelope

/-- A command keeps a key safe. -/
theorem held_kept (hnamed : file.Named)
    (htyped : ∀ password, env.password = .ok password → password ∈ passwords) :
    CommandKeeps p env (Held p passwords file key) := by
  refine .of_local hnamed (fun _ _ h => h.of_sameAt)
    (fun password _ hpassword h => seal_held (htyped password hpassword) h) ?_ ?_
  · -- the file exists, so a new one is refused in its place
    intro password bytes d h
    rw [sealNew_of_exists bytes h.fileExists]
    exact h
  · intro bytes d h
    rw [writeNewPlain_of_exists bytes h.fileExists]
    exact h

/-- Where a key file is gone, a loss of power does not bring back its plaintext. -/
def Covered (file : KeyFile) (d : VaultDisk) : Prop :=
  d.node file.plain = none → d.node file.sealedPath = none → d.unsettledAt file.plain = none

theorem Covered.of_sameAt (h : Covered file d) (hplain : d.SameAt file.plain d')
    (hsealed : d.SameAt file.sealedPath d') : Covered file d' := by
  intro hnone hnone'
  exact hplain.2.trans (h (hplain.1.symm.trans hnone) (hsealed.1.symm.trans hnone'))

theorem Covered.of_not_exists (h : Covered file d) (hnone : file.exists d = false) :
    d.unsettledAt file.plain = none := by
  obtain ⟨hplain, hsealed⟩ := nodes_of_not_exists hnone
  exact h hplain hsealed

theorem seal_covered {password : String} (h : Covered file d) :
    Covered file (Vault.seal p env.fastKdf (env.draw file) (env.steps file)
      (Vault.withPassword password) file d).2 := by
  have hne := (file.sealedPath_ne_plain).symm
  -- a plaintext is removed from beside its sealed form
  have hsealed : ∀ {envelope : Bytes},
      Covered file (((d.put file.sealedPath envelope).settle file.sealedPath).drop file.plain) := by
    intro envelope _ hnone
    rw [Disk.node_drop, if_neg hne.symm, Disk.node_settle, Disk.node_put_self] at hnone
    exact absurd hnone (by simp)
  refine Triple.last (P := fun s => s = d) (I := Covered file) ?_ rfl
  refine (seal_triple p env.fastKdf (env.draw file) (env.steps file) password file d).post
    (fun b d' hend => ?_) fun e d' hend => ?_
  · rcases hend with ⟨-, rfl, -⟩ | ⟨-, content, envelope, -, -, -, rfl⟩
    · exact h
    · exact hsealed
  · rcases hend with rfl | ⟨content, envelope, hcontent, -, hstage⟩
    · exact h
    cases hstage with
    | removed => exact hsealed
    | storing d' hleft =>
      exact fun hnone => absurd ((hleft.node_of_ne hne).1.symm.trans hnone) (by simp [hcontent])
    | stored =>
      intro hnone
      rw [Disk.node_settle, Disk.node_put, if_neg hne, hcontent] at hnone
      exact absurd hnone (by simp)

theorem covered_kept (hnamed : file.Named) : CommandKeeps p env (Covered file) := by
  refine .of_local hnamed (fun _ _ h => h.of_sameAt) (fun _ _ _ h => seal_covered h) ?_ ?_
  · intro password bytes d h
    rcases hexists : file.exists d
    · have hplain : d.SameAt file.plain (Vault.sealNew p env.fastKdf (env.draw file)
          (env.steps file).toStoreFaults (Vault.withPassword password) file bytes d).2 :=
        sealNew_sameAt bytes (file.sealedPath_ne_plain).symm d
      exact fun _ _ => hplain.2.trans (h.of_not_exists hexists)
    · rw [sealNew_of_exists bytes hexists]
      exact h
  · intro bytes d h
    rcases hexists : file.exists d
    · -- a write that leaves no file has removed none
      intro hnone _
      obtain ⟨-, hafter | hafter⟩ :=
        writeNewPlain_notRemoved (env.steps file).toWriteFaults file bytes file.plain d hnone
      · exact hafter
      · exact hafter.trans (h.of_not_exists hexists)
    · rw [writeNewPlain_of_exists bytes hexists]
      exact h

/-! ## Runs -/

/-- What the commands keep and a loss of power keeps, holds along every run. -/
theorem run_keeps {I : VaultDisk → Prop}
    (hcommand : ∀ env : CommandEnv, (∀ password, env.password = .ok password →
      password ∈ passwords) → CommandKeeps p env I)
    (hloss : ∀ d found, I d → d.CrashImage (Disk.mount found).node → I (Disk.mount found))
    (hrun : VaultRun p passwords d d') (hI : I d) : I d' := by
  refine hrun.invariant (fun s event t hs hpossible hstep => ?_) hI
  cases event with
  | command env c => exact Option.some.inj hstep ▸ (hcommand env hpossible).run c hs
  | powerLoss found => exact Option.some.inj hstep ▸ hloss s found hs hpossible

theorem run_held (hnamed : file.Named) (hrun : VaultRun p passwords d d')
    (h : Held p passwords file key d) : Held p passwords file key d' :=
  run_keeps (fun _ => held_kept hnamed) (fun _ _ h himage => h.powerLoss himage) hrun h

theorem run_covered (hnamed : file.Named) {nodes : List (Path × Node UInt8)}
    (hrun : VaultRun p passwords (Disk.mount nodes) d) : Covered file d :=
  run_keeps (fun _ _ => covered_kept hnamed) (fun _ _ _ _ _ _ => rfl) hrun fun _ _ => rfl

end Kept

/-! ## A new key file -/

section Created

variable {p : EnvelopePrims} {env : CommandEnv} {passwords : Set String} {file : KeyFile}
  {key : Bytes} {d d' : VaultDisk}

/-- A new sealed file that is reported as written is settled, and opens to what was to be sealed. -/
theorem sealNew_stored {fastKdf : Bool} {draw : Draw} {f : StoreFaults} {password : String}
    (file : KeyFile) (bytes : Bytes) (d : VaultDisk) :
    Triple (fun s => s = d)
      (Vault.sealNew p fastKdf draw f (Vault.withPassword password) file bytes)
      (fun _ s => file.exists d = false ∧ ∃ envelope, decryptBytes p envelope password = .ok bytes ∧
        s = (d.put file.sealedPath envelope).settle file.sealedPath)
      (fun _ _ => True) := by
  unfold Vault.sealNew
  refine Triple.bind (Q := fun pw s => pw = password ∧ s = d)
    (Triple.pure fun s hs => ⟨rfl, hs⟩) fun pw => Triple.of_fact fun hpw => ?_
  subst hpw
  have hnew : Triple (fun s => s = d) (refuseExisting file)
      (fun _ s => file.exists d = false ∧ s = d) (fun _ _ => True) := by
    refine Triple.of_eq ?_
    rcases hexists : file.exists d
    · unfold refuseExisting
      rw [bind_of_ok (get_apply d), if_neg (by simp [hexists])]
      exact ⟨rfl, rfl⟩
    · rw [refuseExisting_of_exists hexists]
      trivial
  refine hnew.bind fun _ => Triple.of_fact fun hexists => ?_
  refine Triple.bind (Q := fun envelope s => decryptBytes p envelope pw = .ok bytes ∧ s = d)
    (Triple.ofExcept (fun envelope h s hs => ⟨freshEnvelope_opens h, hs⟩) fun _ _ _ _ => trivial)
    fun envelope => Triple.of_fact fun hopens => ?_
  refine ((writeChecked_triple f file.sealedPath envelope _ d).post (fun _ _ h => h.2)
    fun _ _ _ => trivial).bind fun _ => Triple.pure fun s hs => ⟨hexists, envelope, hopens, hs⟩

/-- A new account's key is safe once its sealed file is reported as written. -/
theorem createCommand_held {args : CreateArgs} (hcovered : Covered (KeyFile.at args.file) d)
    (htyped : ∀ password, env.password = .ok password → password ∈ passwords)
    (hsealed : args.plain = false) :
    Triple (fun s => s = d) (createCommand p env args)
      (fun _ s => ∃ key, env.account = .ok key ∧ Held p passwords (KeyFile.at args.file) key s)
      (fun _ _ => True) := by
  refine createCommand_triple (fun _ => trivial)
    (fun _ _ hplain => absurd (hsealed.symm.trans hplain) (by simp))
    fun _ given bytes hpasses hprepares _ => ?_
  refine (sealNew_stored (KeyFile.at args.file) bytes d).post ?_ fun _ _ h => h
  rintro path d' ⟨hexists, envelope, hopens, rfl⟩
  -- neither form was there before, so no plaintext can come back beside the envelope
  obtain ⟨hnone, -⟩ := nodes_of_not_exists hexists
  have hne := ((KeyFile.at args.file).sealedPath_ne_plain).symm
  have hsame : d.SameAt (KeyFile.at args.file).plain
      ((d.put (KeyFile.at args.file).sealedPath envelope).settle
        (KeyFile.at args.file).sealedPath) :=
    trans_of (Disk.SameAt _) (Disk.sameAt_put envelope hne) (Disk.sameAt_settle hne)
  refine ⟨bytes, hprepares.account, .sealedForm (htyped given hpasses.given) hopens ?_ ?_
    (hsame.1.trans hnone) fun change hchange => ?_⟩
  · rw [Disk.node_settle, Disk.node_put_self]
  · rw [Disk.unsettledAt_settle, if_pos rfl]
  · rw [hsame.2, hcovered.of_not_exists hexists] at hchange
    exact absurd hchange (by simp)

/-- The vault has been given a key to keep: a key file was found that opens to it, or a `create`
has reported, after any run, that it has written the key to a new sealed file. -/
inductive Entrusted (p : EnvelopePrims) (passwords : Set String) (file : KeyFile) (key : Bytes) :
    VaultDisk → Prop
  | found {nodes : List (Path × Node UInt8)} {password : String} (typed : password ∈ passwords)
      (opens : OpensTo p password file (Disk.mount nodes) key) :
      Entrusted p passwords file key (Disk.mount nodes)
  | created {nodes : List (Path × Node UInt8)} {d d' : VaultDisk} {env : CommandEnv}
      {args : CreateArgs} {printed : List Path}
      (before : VaultRun p passwords (Disk.mount nodes) d)
      (typed : ∀ password, env.password = .ok password → password ∈ passwords)
      (isSealed : args.plain = false) (named : KeyFile.at args.file = file)
      (account : env.account = .ok key)
      (run : createCommand p env args d = (.ok printed, d')) : Entrusted p passwords file key d'

theorem Entrusted.held (hnamed : file.Named) (h : Entrusted p passwords file key d) :
    Held p passwords file key d := by
  cases h with
  | found typed opens => exact .of_opensTo typed opens
  | created before typed isSealed named account run =>
    subst named
    obtain ⟨key', haccount, hheld⟩ :=
      (createCommand_held (run_covered hnamed before) typed isSealed).of_ok rfl run
    obtain rfl : key' = key := Except.ok.inj (haccount.symm.trans account)
    exact hheld

end Created

/-! ## A crash and a loss of power -/

namespace OneVault

/-- A seal of `a.key` under "pw" that crashes once the plaintext is removed. -/
def crashingEnv : CommandEnv := sampleEnv "pw" { SealFaults.ok with remove := .crash }

/-- `a.key` in the clear. -/
def clearNodes : List (Path × Node UInt8) := [(sampleFile.plain, .file [7, 8])]

/-- The envelope of `a.key` under "pw". -/
def keyEnvelope : Bytes := 0x7B :: ((sampleKey (utf8 "pw")).1.take 16 ++ [7, 8])

/-- Power was lost, and the plaintext is back. -/
def foundNodes : List (Path × Node UInt8) :=
  [(sampleFile.plain, .file [7, 8]), (sampleFile.sealedPath, .file keyEnvelope)]

theorem crashed_disk :
    (sealHere.run samplePrims crashingEnv (Disk.mount clearNodes)).2
      = ⟨[(sampleFile.sealedPath, .file keyEnvelope)],
          [(sampleFile.plain, .removal (.file [7, 8]))]⟩ := by
  decide

theorem found_crashImage :
    (sealHere.run samplePrims crashingEnv (Disk.mount clearNodes)).2.CrashImage
      (Disk.mount foundNodes).node := by
  rw [crashed_disk]
  intro path
  by_cases hplain : path = sampleFile.plain
  · subst hplain
    exact Or.inr rfl
  · have hsettled : (⟨[(sampleFile.sealedPath, .file keyEnvelope)],
        [(sampleFile.plain, .removal (.file [7, 8]))]⟩ : VaultDisk).unsettledAt path = none := by
      simp [Disk.unsettledAt, Keyed.lookup_cons_eq, hplain]
    rw [hsettled]
    simp [foundNodes, Disk.node, Disk.mount, Keyed.lookup_cons_eq, hplain]

end OneVault

end BlockchainOps.AccountVault
