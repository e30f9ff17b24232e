import BlockchainOps.AccountVault.SealTheorems
import BlockchainOps.Lib.Failure

/-!
# What a failed seal leaves behind

A file that was created is removed again in one case only: when what was read back is not what
was written. Every other failure after the creation strands it: a write that stores a part, a
sync, the read back, the removal itself, and, for a seal, the removal of the plaintext. `Strands`
lists them, and `noResidue_iff` says that a seal, a new sealed file and a new plain file
leave the directory as it was on failure exactly when none of them happens.
-/

namespace BlockchainOps.AccountVault

open Effect Proc Storage

/-- If `x` fails from `d`, the files and their contents are those before it. -/
def NoResidue {α : Type} (x : Proc VaultDisk VaultError α) (d : VaultDisk) : Prop :=
  ∀ e d', x d = (.err e, d') → ∀ q, d'.node q = d.node q

/-- The creation of a file returns, with `stored` in it. -/
def WriteFaults.Stores (f : WriteFaults) (bytes stored : Bytes) : Prop :=
  f.create = .none ∧ f.write.reported bytes = some stored ∧ f.sync = .none

/-- A step of the creation of a file fails after the file was created. -/
inductive WriteFaults.Strands (f : WriteFaults) (bytes : Bytes) : Prop
  | write (n : ℕ) : f.create = .none → f.write = .short n → Strands f bytes
  | sync (stored : Bytes) : f.create = .none → f.write.reported bytes = some stored →
      f.sync = .fail → Strands f bytes

/-- A sealed file was created, and fails to be stored or to be read back and is not removed. -/
inductive StoreFaults.Strands (f : StoreFaults) (envelope : Bytes) : Prop
  | write : f.toWriteFaults.Strands envelope → Strands f envelope
  | reread (stored : Bytes) : f.Stores envelope stored → f.reread = .fail → Strands f envelope
  | withdraw (stored : Bytes) : f.Stores envelope stored → f.reread = .none → stored ≠ envelope →
      f.withdraw = .fail → Strands f envelope

/-- A sealed file was created beside its plaintext, and one of them fails to be brought away. -/
inductive SealFaults.Strands (f : SealFaults) (envelope : Bytes) : Prop
  | store : f.toStoreFaults.Strands envelope → Strands f envelope
  | remove : f.Stores envelope envelope → f.reread = .none → f.remove = .fail →
      Strands f envelope

/-! ## Creating a file -/

section Creation

variable {d d' : VaultDisk} {path : Path} {bytes : Bytes}

/-- A file at a path where nothing stood is a residue. -/
theorem not_forall_node_eq (hnone : d.node path = none) {content : Bytes}
    (h : d'.node path = some (.file content)) : ¬ ∀ q, d'.node q = d.node q := by
  intro hsame
  have hpath := hsame path
  rw [h, hnone] at hpath
  exact absurd hpath (by simp)

theorem writePrivate_ok_iff {f : WriteFaults} {u : Unit} :
    writePrivate f path bytes d = (.ok u, d') ↔
      d.node path = none ∧ ∃ stored, f.Stores bytes stored ∧
        d' = (d.put path stored).settle path := by
  unfold writePrivate WriteFaults.Stores
  simp only [bind_ok_iff, mapErr_ok_iff, createNew_ok_iff, writeAll_ok_iff, syncAll_ok_iff]
  constructor
  · rintro ⟨-, d₁, ⟨hcreate, hnone, rfl⟩, -, d₂, ⟨stored, hstored, rfl⟩, hsync, rfl⟩
    exact ⟨hnone, stored, ⟨hcreate, hstored, hsync⟩, by rw [Disk.put_put]⟩
  · rintro ⟨hnone, stored, ⟨hcreate, hstored, hsync⟩, rfl⟩
    exact ⟨(), _, ⟨hcreate, hnone, rfl⟩, (), _, ⟨stored, hstored, rfl⟩, hsync,
      by rw [Disk.put_put]⟩

/-- The creation of a file leaves one on failure exactly when a step fails once it is there. -/
theorem noResidue_writePrivate_iff {f : WriteFaults} (hnone : d.node path = none) :
    NoResidue (writePrivate f path bytes) d ↔ ¬ f.Strands bytes := by
  have hput : ∀ content, ¬ ∀ q, (d.put path content).node q = d.node q := fun content =>
    not_forall_node_eq hnone (Disk.node_put_self d path content)
  show FailsIn (fun d' : VaultDisk => ∀ q, d'.node q = d.node q) (writePrivate f path bytes) d ↔ _
  unfold writePrivate
  simp only [failsIn_bind_iff, failsIn_mapErr_iff, mapErr_ok_iff, createNew_ok_iff,
    writeAll_ok_iff, failsIn_writeAll_iff, failsIn_syncAll_iff]
  constructor
  · rintro ⟨-, hrest⟩ hstrands
    cases hstrands with
    | write n hcreate hwrite =>
      have hleft := (hrest () _ ⟨hcreate, hnone, rfl⟩).1 n hwrite
      rw [Disk.put_put] at hleft
      exact hput _ hleft
    | sync stored hcreate hstored hsync =>
      have hleft := (hrest () _ ⟨hcreate, hnone, rfl⟩).2 () _ ⟨stored, hstored, rfl⟩ hsync
      rw [Disk.put_put] at hleft
      exact hput _ hleft
  · intro hnot
    refine ⟨failsIn_createNew fun _ => rfl, ?_⟩
    rintro - d₁ ⟨hcreate, -, rfl⟩
    refine ⟨fun n hwrite => absurd (.write n hcreate hwrite) hnot, ?_⟩
    rintro - d₂ ⟨stored, hstored, rfl⟩ hsync
    exact absurd (.sync stored hcreate hstored hsync) hnot

theorem writeChecked_ok_iff {f : StoreFaults} {mismatch : VaultError} {u : Unit} :
    writeChecked f path bytes mismatch d = (.ok u, d') ↔
      d.node path = none ∧ f.Stores bytes bytes ∧ f.reread = .none ∧
        d' = (d.put path bytes).settle path := by
  unfold writeChecked
  simp only [bind_ok_iff, mapErr_ok_iff, writePrivate_ok_iff, readFile_ok_iff]
  constructor
  · rintro ⟨-, d₁, ⟨hnone, stored, hstores, rfl⟩, written, d₂, ⟨hreread, hwritten, rfl⟩, hend⟩
    obtain rfl : stored = written := by simpa using hwritten
    by_cases heq : stored = bytes
    · rw [if_pos heq] at hend
      subst heq
      exact ⟨hnone, hstores, hreread, by simpa [eq_comm] using hend⟩
    · rw [if_neg heq, bind_ok_iff] at hend
      simp at hend
  · rintro ⟨hnone, hstores, hreread, rfl⟩
    exact ⟨(), _, ⟨hnone, bytes, hstores, rfl⟩, bytes, _, ⟨hreread, by simp, rfl⟩, by simp⟩

/-- A sealed file that could not be stored is a residue exactly when it is not removed. -/
theorem noResidue_writeChecked_iff {f : StoreFaults} {mismatch : VaultError}
    (hnone : d.node path = none) :
    NoResidue (writeChecked f path bytes mismatch) d ↔ ¬ f.Strands bytes := by
  have hfile : ∀ stored, ((d.put path stored).settle path).node path = some (.file stored) :=
    fun stored => Disk.node_put_self d path stored
  have hput : ∀ stored, ¬ ∀ q, ((d.put path stored).settle path).node q = d.node q :=
    fun stored => not_forall_node_eq hnone (hfile stored)
  have hdrop : ∀ stored q, (((d.put path stored).settle path).drop path).node q = d.node q := by
    intro stored q
    rw [Disk.node_drop, Disk.node_settle, Disk.node_put]
    split_ifs with hq
    · rw [hq, hnone]
    · rfl
  have hwrite : FailsIn (fun d' : VaultDisk => ∀ q, d'.node q = d.node q)
      (writePrivate f.toWriteFaults path bytes) d ↔ ¬ f.toWriteFaults.Strands bytes :=
    noResidue_writePrivate_iff hnone
  show FailsIn (fun d' : VaultDisk => ∀ q, d'.node q = d.node q)
    (writeChecked f path bytes mismatch) d ↔ _
  unfold writeChecked
  simp only [failsIn_bind_iff, failsIn_mapErr_iff, mapErr_ok_iff, writePrivate_ok_iff, hwrite]
  constructor
  · rintro ⟨hcreated, hrest⟩ hstrands
    cases hstrands with
    | write h => exact hcreated h
    | reread stored hstores hreread =>
      have hread := (hrest () _ ⟨hnone, stored, hstores, rfl⟩).1
      exact hput stored ((failsIn_readFile_iff (hfile stored)).mp hread hreread)
    | withdraw stored hstores hreread hne hwithdraw =>
      have hback := (hrest () _ ⟨hnone, stored, hstores, rfl⟩).2 stored _
        (readFile_ok_iff.mpr ⟨hreread, hfile stored, rfl⟩)
      rw [if_neg hne, failsIn_attempt_raise_iff, failsIn_removeFile_iff (hfile stored)] at hback
      exact hput stored (hback.2 hwithdraw)
  · intro hnot
    refine ⟨fun h => hnot (.write h), ?_⟩
    rintro - d₁ ⟨-, stored, hstores, rfl⟩
    refine ⟨(failsIn_readFile_iff (hfile stored)).mpr fun h => absurd (.reread stored hstores h) hnot,
      ?_⟩
    intro written d₂ hread
    obtain ⟨hreread, hwritten, rfl⟩ := readFile_ok_iff.mp hread
    obtain rfl : stored = written := by simpa [hfile] using hwritten
    by_cases heq : stored = bytes
    · rw [if_pos heq]
      exact failsIn_pure _
    · -- the file differs, and its removal leaves the directory as it was
      rw [if_neg heq, failsIn_attempt_raise_iff, failsIn_removeFile_iff (hfile stored)]
      refine ⟨fun u d₃ hremoved => ?_, fun h => ?_⟩
      · rw [((removeFile_ok_iff (hfile stored)).mp hremoved).2]
        exact hdrop stored
      · exact absurd (.withdraw stored hstores hreread heq h) hnot

end Creation

/-! ## The operations -/

section Operations

variable {p : EnvelopePrims} {fastKdf : Bool} {draw : Draw} {v : Vault} {file : KeyFile}
  {d : VaultDisk}

theorem requiredPassword_ok_iff {password : String} :
    v.requiredPassword = .ok password ↔ v.password = some password := by
  unfold Vault.requiredPassword
  rcases v.password with _ | found
  · simp
  · simp

/-- A step that only reads the state fails in it. -/
theorem noResidue_bind_ofExcept_iff {α β : Type} {x : Except VaultError α}
    {g : α → Proc VaultDisk VaultError β} :
    NoResidue (ofExcept x >>= g) d ↔ ∀ a, x = .ok a → NoResidue (g a) d := by
  show FailsIn (fun d' : VaultDisk => ∀ q, d'.node q = d.node q) (ofExcept x >>= g) d ↔ _
  rw [failsIn_bind_iff, failsIn_ofExcept_iff]
  constructor
  · rintro ⟨-, h⟩ a ha
    exact h a d (ofExcept_ok_iff.mpr ⟨ha, rfl⟩)
  · intro h
    refine ⟨fun _ _ _ => rfl, fun a d' ha => ?_⟩
    obtain ⟨hx, rfl⟩ := ofExcept_ok_iff.mp ha
    exact h a hx

theorem noResidue_raise {α : Type} (e : VaultError) :
    NoResidue (raise e : Proc VaultDisk VaultError α) d := failsIn_raise_iff.mpr fun _ => rfl

theorem nodes_of_not_exists (h : file.exists d = false) :
    d.node file.plain = none ∧ d.node file.sealedPath = none := by
  rw [KeyFile.exists, Bool.or_eq_false_iff] at h
  exact ⟨pathExists_eq_false.mp h.1, pathExists_eq_false.mp h.2⟩

/-- A program that ends by returning what it has leaves on failure what its steps leave. -/
theorem noResidue_bind_pure_iff {α β : Type} {x : Proc VaultDisk VaultError α} {b : β} :
    NoResidue (x >>= fun _ => pure b) d ↔ NoResidue x d :=
  failsIn_bind_pure_iff

theorem noResidue_refuseExisting_bind_iff {α : Type} {g : Unit → Proc VaultDisk VaultError α} :
    NoResidue (refuseExisting file >>= g) d ↔ (file.exists d = false → NoResidue (g ()) d) := by
  unfold refuseExisting
  by_cases h : file.exists d = true
  · have hrun : (do
        let d ← get
        if file.exists d then raise (.existsAlready file.plain) else pure () :
        Proc VaultDisk VaultError Unit) d = (.err (.existsAlready file.plain), d) := by
      rw [bind_of_ok (get_apply d), if_pos h]
      rfl
    unfold NoResidue
    rw [bind_of_err hrun]
    simp [h]
  · have hrun : (do
        let d ← get
        if file.exists d then raise (.existsAlready file.plain) else pure () :
        Proc VaultDisk VaultError Unit) d = (.ok (), d) := by
      rw [bind_of_ok (get_apply d), if_neg h]
      rfl
    unfold NoResidue
    rw [bind_of_ok hrun]
    simp [h]

theorem noResidue_bind_get_iff {α : Type} {g : VaultDisk → Proc VaultDisk VaultError α} :
    NoResidue (get >>= g) d ↔ NoResidue (g d) d := by
  unfold NoResidue
  rw [bind_of_ok (get_apply d)]

theorem noResidue_bind_readFile_iff {α : Type} {f : Fault} {action : IoAction} {path : Path}
    {g : Bytes → Proc VaultDisk VaultError α} :
    NoResidue (mapErr (.io action path) (readFile f path) >>= g) d ↔
      ∀ content, f = .none → d.node path = some (.file content) → NoResidue (g content) d := by
  show FailsIn (fun d' : VaultDisk => ∀ q, d'.node q = d.node q) _ d ↔ _
  rw [failsIn_bind_iff, failsIn_mapErr_iff]
  simp only [mapErr_ok_iff, readFile_ok_iff]
  constructor
  · rintro ⟨-, h⟩ content hf hcontent
    exact h content d ⟨hf, hcontent, rfl⟩
  · intro h
    refine ⟨failsIn_readFile fun _ => rfl, ?_⟩
    rintro content d' ⟨hf, hcontent, rfl⟩
    exact h content hf hcontent

/-- The storing of a sealed form beside its plaintext, and the removal of the plaintext. -/
theorem noResidue_replace_iff {f : SealFaults} {content envelope : Bytes} {mismatch : VaultError}
    (hplain : d.node file.plain = some (.file content)) (hnone : d.node file.sealedPath = none) :
    NoResidue (do
      writeChecked f.toStoreFaults file.sealedPath envelope mismatch
      mapErr (.io .remove file.plain) (removeFile f.remove file.plain)
      pure true : Proc VaultDisk VaultError Bool) d ↔ ¬ f.Strands envelope := by
  have hchecked : FailsIn (fun d' : VaultDisk => ∀ q, d'.node q = d.node q)
      (writeChecked f.toStoreFaults file.sealedPath envelope mismatch) d ↔
      ¬ f.toStoreFaults.Strands envelope := noResidue_writeChecked_iff hnone
  -- with the sealed form there, the plaintext is still what it was
  have hstill : ((d.put file.sealedPath envelope).settle file.sealedPath).node file.plain
      = some (.file content) := by
    rw [Disk.node_settle, Disk.node_put, if_neg file.sealedPath_ne_plain.symm, hplain]
  show FailsIn (fun d' : VaultDisk => ∀ q, d'.node q = d.node q) _ d ↔ _
  simp only [failsIn_bind_iff, failsIn_mapErr_iff, writeChecked_ok_iff, hchecked]
  constructor
  · rintro ⟨hstored, hrest⟩ hstrands
    cases hstrands with
    | store h => exact hstored h
    | remove hstores hreread hremove =>
      have hremoved := (hrest () _ ⟨hnone, hstores, hreread, rfl⟩).1
      rw [failsIn_removeFile_iff hstill] at hremoved
      exact not_forall_node_eq hnone (Disk.node_put_self d file.sealedPath envelope)
        (hremoved hremove)
  · intro hnot
    refine ⟨fun h => hnot (.store h), ?_⟩
    rintro - d₁ ⟨-, hstores, hreread, rfl⟩
    rw [failsIn_removeFile_iff hstill]
    exact ⟨fun h => absurd (.remove hstores hreread h) hnot, fun _ _ _ => failsIn_pure _⟩

theorem noResidue_seal_iff {f : SealFaults} :
    NoResidue (Vault.seal p fastKdf draw f v file) d ↔
      ∀ password content envelope, v.password = some password →
        d.node file.plain = some (.file content) → d.node file.sealedPath = none →
        f.read = .none → sealedEnvelope p fastKdf draw password file.plain content = .ok envelope →
        ¬ f.Strands envelope := by
  unfold Vault.seal
  rw [noResidue_bind_ofExcept_iff]
  simp only [requiredPassword_ok_iff]
  refine forall_congr' fun password => ?_
  rw [noResidue_bind_get_iff]
  by_cases hplain : d.pathExists file.plain = true
  · rw [if_pos hplain]
    by_cases hsealed : d.pathExists file.sealedPath = true
    · have hthere : d.node file.sealedPath ≠ none := pathExists_eq_true.mp hsealed
      rw [if_pos hsealed]
      exact iff_of_true (fun _ => noResidue_raise _) fun _ _ _ _ hnone => absurd hnone hthere
    · have hnone : d.node file.sealedPath = none :=
        pathExists_eq_false.mp (by simpa using hsealed)
      rw [if_neg hsealed, noResidue_bind_readFile_iff]
      simp only [noResidue_bind_ofExcept_iff]
      constructor
      · intro h content envelope hpassword hcontent _ hread henvelope
        exact (noResidue_replace_iff hcontent hnone).mp (h hpassword content hread hcontent _ henvelope)
      · intro h hpassword content hread hcontent envelope henvelope
        exact (noResidue_replace_iff hcontent hnone).mpr
          (h content envelope hpassword hcontent hnone hread henvelope)
  · -- nothing is written where there is no plaintext
    have hgone : d.node file.plain = none := pathExists_eq_false.mp (by simpa using hplain)
    rw [if_neg hplain]
    refine iff_of_true (fun _ => ?_) fun content _ _ hcontent => ?_
    · split_ifs
      · exact failsIn_pure _
      · exact noResidue_raise _
    · rw [hgone] at hcontent
      exact absurd hcontent (by simp)

theorem noResidue_sealNew_iff {f : StoreFaults} {bytes : Bytes} :
    NoResidue (Vault.sealNew p fastKdf draw f v file bytes) d ↔
      ∀ password envelope, v.password = some password → file.exists d = false →
        freshEnvelope p fastKdf draw password bytes (.newNoRoundTrip file.plain) = .ok envelope →
        ¬ f.Strands envelope := by
  unfold Vault.sealNew
  simp only [noResidue_bind_ofExcept_iff, noResidue_refuseExisting_bind_iff,
    noResidue_bind_pure_iff, requiredPassword_ok_iff]
  constructor
  · intro h password envelope hpassword hexists henvelope
    have hnone : d.node file.sealedPath = none := (nodes_of_not_exists hexists).2
    exact (noResidue_writeChecked_iff hnone).mp (h password hpassword hexists envelope henvelope)
  · intro h password hpassword hexists envelope henvelope
    have hnone : d.node file.sealedPath = none := (nodes_of_not_exists hexists).2
    exact (noResidue_writeChecked_iff hnone).mpr (h password envelope hpassword hexists henvelope)

theorem noResidue_writeNewPlain_iff {f : WriteFaults} {bytes : Bytes} :
    NoResidue (writeNewPlain f file bytes) d ↔ (file.exists d = false → ¬ f.Strands bytes) := by
  unfold writeNewPlain
  rw [noResidue_refuseExisting_bind_iff, noResidue_bind_pure_iff]
  refine imp_congr_right fun hexists => ?_
  exact noResidue_writePrivate_iff (nodes_of_not_exists hexists |>.1)

/-- A failed seal, a failed new sealed file and a failed new plain file leave every path as
it was exactly when no step fails after the file was created, except a read back that
differs and is followed by the removal of the file. -/
theorem failed_seal_noResidue_iff (p : EnvelopePrims) (fastKdf : Bool) (draw : Draw) (v : Vault)
    (f : SealFaults) (file : KeyFile) (bytes : Bytes) (d : VaultDisk) :
    (NoResidue (Vault.seal p fastKdf draw f v file) d ↔
      ∀ password content envelope, v.password = some password →
        d.node file.plain = some (.file content) → d.node file.sealedPath = none →
        f.read = .none → sealedEnvelope p fastKdf draw password file.plain content = .ok envelope →
        ¬ f.Strands envelope) ∧
    (NoResidue (Vault.sealNew p fastKdf draw f.toStoreFaults v file bytes) d ↔
      ∀ password envelope, v.password = some password → file.exists d = false →
        freshEnvelope p fastKdf draw password bytes (.newNoRoundTrip file.plain) = .ok envelope →
        ¬ f.toStoreFaults.Strands envelope) ∧
    (NoResidue (writeNewPlain f.toWriteFaults file bytes) d ↔
      (file.exists d = false → ¬ f.toWriteFaults.Strands bytes)) :=
  ⟨noResidue_seal_iff, noResidue_sealNew_iff, noResidue_writeNewPlain_iff⟩

end Operations

/-- On an empty disk a write stores one byte and fails: the sealed file that it leaves makes the
same command refuse when all steps go as they should. -/
theorem full_disk_strands :
    let full : SealFaults := { SealFaults.ok with write := .short 1 }
    let v := Vault.withPassword "pw"
    let create := fun f : StoreFaults => Vault.sealNew samplePrims true sampleDraw f v sampleFile [7]
    let run := create full.toStoreFaults (Disk.mount [])
    run.1 = .err (.io .write sampleFile.sealedPath .other) ∧
    run.2.node sampleFile.sealedPath = some (.file [0x7B]) ∧
    ¬ NoResidue (create full.toStoreFaults) (Disk.mount []) ∧
    (create SealFaults.ok.toStoreFaults run.2).1 = .err (.existsAlready sampleFile.plain) ∧
    ¬ NoResidue (Vault.seal samplePrims true sampleDraw full v sampleFile)
      (Disk.mount [(sampleFile.plain, .file [7])]) ∧
    ¬ NoResidue (writeNewPlain full.toWriteFaults sampleFile [7]) (Disk.mount []) := by
  intro full v create run
  have hrun : run = (.err (.io .write sampleFile.sealedPath .other), run.2) := by decide
  have hleft : run.2.node sampleFile.sealedPath = some (.file [0x7B]) := by decide
  refine ⟨by decide, hleft, ?_, by decide, ?_, ?_⟩
  · intro h
    have hsame := h _ _ hrun sampleFile.sealedPath
    rw [hleft] at hsame
    exact absurd hsame (by decide)
  · intro h
    have hsame := h (.io .write sampleFile.sealedPath .other)
      ((Vault.seal samplePrims true sampleDraw full v sampleFile)
        (Disk.mount [(sampleFile.plain, .file [7])])).2 (by decide) sampleFile.sealedPath
    exact absurd hsame (by decide)
  · intro h
    have hsame := h (.io .write sampleFile.plain .other)
      ((writeNewPlain full.toWriteFaults sampleFile [7]) (Disk.mount [])).2 (by decide)
      sampleFile.plain
    exact absurd hsame (by decide)

end BlockchainOps.AccountVault
