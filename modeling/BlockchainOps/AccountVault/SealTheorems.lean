import BlockchainOps.Lib.Fallible
import BlockchainOps.AccountVault.Vault

/-!
# A seal never loses a key

A seal goes through a few states of the disk: nothing has changed; the sealed path holds what the
write has stored so far, with the plaintext untouched; the sealed path holds the whole envelope,
settled; and last the plaintext is gone. `seal_triple` says that every run, whichever of its
steps fails or is the last before a crash, ends in one of them, and when it returns.

In each of them the key can be recovered, from what the file system shows and from whatever is
found after power was lost (`seal_keeps_key`).
-/

namespace BlockchainOps.AccountVault

open Effect Proc Storage

/-! ## What a creation of a file leaves -/

/-- What the steps of a creation may leave stored of `bytes`: nothing, a part, all, or something
else that the write reported as done. -/
def WriteFaults.Leaves (f : WriteFaults) (bytes stored : Bytes) : Prop :=
  stored = bytes ∨ f.write = .garbled stored ∨ (f.create = .crash ∧ stored = []) ∨
    ∃ n, (f.write = .short n ∨ f.write = .crash n) ∧ stored = bytes.take n

/-- The states a creation of `path` that does not succeed may leave: no file, or one with what
was stored, settled or not, and perhaps removed again. -/
def WriteFaults.LeftBehind (f : WriteFaults) (d₀ : VaultDisk) (path : Path) (bytes : Bytes)
    (d : VaultDisk) : Prop :=
  d = d₀ ∨ (d₀.node path = none ∧ ∃ stored, f.Leaves bytes stored ∧
    (d = d₀.put path stored ∨ d = (d₀.put path stored).settle path ∨
      d = ((d₀.put path stored).settle path).drop path))

/-- Another path is as it was, and as settled as it was. -/
theorem WriteFaults.LeftBehind.node_of_ne {f : WriteFaults} {d₀ d : VaultDisk} {path q : Path}
    {bytes : Bytes} (h : f.LeftBehind d₀ path bytes d) (hq : q ≠ path) :
    d.node q = d₀.node q ∧ d.unsettledAt q = d₀.unsettledAt q := by
  rcases h with rfl | ⟨-, stored, -, rfl | rfl | rfl⟩
  · exact ⟨rfl, rfl⟩
  · exact ⟨by rw [Disk.node_put, if_neg hq], by rw [Disk.unsettledAt_put, if_neg hq]⟩
  · exact ⟨by rw [Disk.node_settle, Disk.node_put, if_neg hq],
      by rw [Disk.unsettledAt_settle, if_neg hq, Disk.unsettledAt_put, if_neg hq]⟩
  · exact ⟨by rw [Disk.node_drop, if_neg hq, Disk.node_settle, Disk.node_put, if_neg hq],
      by rw [Disk.unsettledAt_drop_of_ne _ hq, Disk.unsettledAt_settle, if_neg hq,
        Disk.unsettledAt_put, if_neg hq]⟩

theorem writePrivate_triple (f : WriteFaults) (path : Path) (bytes : Bytes) (d₀ : VaultDisk) :
    Triple (fun d => d = d₀) (writePrivate f path bytes)
      (fun _ d => d₀.node path = none ∧ ∃ stored, f.Leaves bytes stored ∧
        d = (d₀.put path stored).settle path)
      (fun _ d => f.LeftBehind d₀ path bytes d) := by
  unfold writePrivate
  have hcreate : Triple (fun d => d = d₀) (createNew f.create path)
      (fun _ d => d = d₀.put path [] ∧ d₀.node path = none)
      (fun _ d => f.LeftBehind d₀ path bytes d) := by
    refine (createNew_triple f.create path d₀).post (fun _ _ h => h) fun _ d h => ?_
    rcases h with rfl | ⟨hf, rfl, hnone⟩
    · exact Or.inl rfl
    · exact Or.inr ⟨hnone, [], Or.inr (Or.inr (Or.inl ⟨hf, rfl⟩)), Or.inl rfl⟩
  refine hcreate.mapErr.bind fun _ => ?_
  -- from here on the file exists, empty at first
  refine (Triple.of_fact fun hnone => ?_).pre fun _ h => ⟨h.2, h.1⟩
  have hwrite : Triple (fun d => d = d₀.put path []) (writeAll f.write path bytes)
      (fun _ d => ∃ stored, f.Leaves bytes stored ∧ d = d₀.put path stored)
      (fun _ d => f.LeftBehind d₀ path bytes d) := by
    refine (writeAll_triple f.write path bytes (d₀.put path [])).post (fun _ d h => ?_)
      fun _ d h => ?_
    · obtain ⟨stored, rfl, hstored⟩ := h
      rw [Disk.put_put]
      exact ⟨stored, hstored.imp id Or.inl, rfl⟩
    · obtain ⟨n, rfl, hf⟩ := h
      rw [Disk.put_put]
      exact Or.inr ⟨hnone, _, Or.inr (Or.inr (Or.inr ⟨n, hf, rfl⟩)), Or.inl rfl⟩
  refine hwrite.mapErr.bind fun _ => Triple.exists_pre fun stored => Triple.of_fact fun hleft => ?_
  refine ((syncAll_triple f.sync path (d₀.put path stored)).post
    (fun _ d h => ⟨hnone, stored, hleft, h⟩) fun _ d h => ?_).mapErr
  rcases h with rfl | rfl
  · exact Or.inr ⟨hnone, stored, hleft, Or.inl rfl⟩
  · exact Or.inr ⟨hnone, stored, hleft, Or.inr (Or.inl rfl)⟩

theorem writeChecked_triple (f : StoreFaults) (path : Path) (envelope : Bytes)
    (mismatch : VaultError) (d₀ : VaultDisk) :
    Triple (fun d => d = d₀) (writeChecked f path envelope mismatch)
      (fun _ d => d₀.node path = none ∧ d = (d₀.put path envelope).settle path)
      (fun _ d => f.LeftBehind d₀ path envelope d) := by
  unfold writeChecked
  refine (writePrivate_triple f.toWriteFaults path envelope d₀).bind fun _ => ?_
  refine Triple.of_fact fun hnone => Triple.exists_pre fun stored => Triple.of_fact fun hleft => ?_
  have hread : Triple (fun d => d = (d₀.put path stored).settle path) (readFile f.reread path)
      (fun written d => written = stored ∧ d = (d₀.put path stored).settle path)
      (fun _ d => f.LeftBehind d₀ path envelope d) := by
    refine (readFile_triple f.reread path _).post (fun written d h => ?_)
      fun _ d h => Or.inr ⟨hnone, stored, hleft, Or.inr (Or.inl h.1)⟩
    rw [Disk.node_settle, Disk.node_put_self, Option.some.injEq, Node.file.injEq] at h
    exact ⟨h.2.2.symm, h.1⟩
  refine hread.mapErr.bind fun written => Triple.of_fact fun hwritten => ?_
  by_cases h : written = envelope
  · rw [if_pos h]
    refine Triple.pure fun d hd => ⟨hnone, ?_⟩
    rw [hd, ← h, hwritten]
  · rw [if_neg h]
    refine Triple.bind (Q := fun _ d => f.LeftBehind d₀ path envelope d)
      (Triple.attempt ((removeFile_triple f.withdraw path _).post (fun _ d hd => ?_)
        fun e d hd => ?_)) fun _ => Triple.raise fun _ hd => hd
    · exact Or.inr ⟨hnone, stored, hleft, Or.inr (Or.inr hd)⟩
    · have hend : f.LeftBehind d₀ path envelope d :=
        Or.inr ⟨hnone, stored, hleft, Or.inr hd⟩
      cases e <;> exact hend

/-! ## What a seal leaves -/

variable {p : EnvelopePrims} {fastKdf : Bool} {draw : Draw} {password : String} {file : KeyFile}

/-- A fresh envelope opens to what was put in it. -/
theorem freshEnvelope_opens {bytes envelope : Bytes} {mismatch : VaultError}
    (h : freshEnvelope p fastKdf draw password bytes mismatch = .ok envelope) :
    decryptBytes p envelope password = .ok bytes := by
  unfold freshEnvelope at h
  rcases henc : encryptBytes p fastKdf draw bytes password with e | sealedBytes
  · rw [henc] at h
    exact absurd h (by simp [bind, Except.bind])
  · rcases hdec : decryptBytes p sealedBytes password with e | reopened
    · simp [henc, hdec, bind, Except.bind] at h
    · simp only [henc, hdec, Fallible.mapError_ok, bind, Except.bind] at h
      split_ifs at h with heq
      rw [← Except.ok.inj h, hdec, heq]

/-- What a seal writes opens under the password: to the plaintext, or to what the envelope
under the plaintext name opened to. -/
theorem sealedEnvelope_opens {plain : Path} {content envelope : Bytes}
    (h : sealedEnvelope p fastKdf draw password plain content = .ok envelope) :
    (isEncryptedEnvelope p content = true ∧ envelope = content ∧
      ∃ bytes, decryptBytes p content password = .ok bytes) ∨
    (isEncryptedEnvelope p content = false ∧ decryptBytes p envelope password = .ok content) := by
  unfold sealedEnvelope at h
  rcases hmark : isEncryptedEnvelope p content
  · rw [hmark, if_neg (by simp)] at h
    exact Or.inr ⟨rfl, freshEnvelope_opens h⟩
  · rw [hmark, if_pos rfl] at h
    rcases hdec : decryptBytes p content password with e | bytes
    · rw [hdec] at h
      exact absurd h (by simp)
    · rw [hdec] at h
      exact Or.inl ⟨rfl, (Except.ok.inj h).symm, bytes, rfl⟩

/-- The states of a seal of the file `content` as `envelope`, from the disk `d₀`. -/
inductive SealStage (f : SealFaults) (d₀ : VaultDisk) (file : KeyFile) (envelope : Bytes) :
    VaultDisk → Prop
  | storing (d : VaultDisk) : f.LeftBehind d₀ file.sealedPath envelope d →
      SealStage f d₀ file envelope d
  | stored : SealStage f d₀ file envelope ((d₀.put file.sealedPath envelope).settle file.sealedPath)
  | removed : SealStage f d₀ file envelope
      (((d₀.put file.sealedPath envelope).settle file.sealedPath).drop file.plain)

theorem pathExists_eq_true {d : VaultDisk} {q : Path} :
    d.pathExists q = true ↔ d.node q ≠ none := by
  rw [Disk.pathExists, Option.isSome_iff_ne_none]

theorem pathExists_eq_false {d : VaultDisk} {q : Path} :
    d.pathExists q = false ↔ d.node q = none := by
  rw [Disk.pathExists, Option.isSome_eq_false_iff, Option.isNone_iff_eq_none]

/-- A run of a seal with a password ends in one of its stages; it returns `true` in the last one,
and `false` when there was only a sealed form. -/
theorem seal_triple (p : EnvelopePrims) (fastKdf : Bool) (draw : Draw) (f : SealFaults)
    (password : String) (file : KeyFile) (d₀ : VaultDisk) :
    Triple (fun d => d = d₀) (Vault.seal p fastKdf draw f (Vault.withPassword password) file)
      (fun b d => (b = false ∧ d = d₀ ∧ d₀.node file.plain = none) ∨
        (b = true ∧ ∃ content envelope, d₀.node file.plain = some (.file content) ∧
          d₀.node file.sealedPath = none ∧
          sealedEnvelope p fastKdf draw password file.plain content = .ok envelope ∧
          d = ((d₀.put file.sealedPath envelope).settle file.sealedPath).drop file.plain))
      (fun _ d => d = d₀ ∨
        ∃ content envelope, d₀.node file.plain = some (.file content) ∧
          sealedEnvelope p fastKdf draw password file.plain content = .ok envelope ∧
          SealStage f d₀ file envelope d) := by
  unfold Vault.seal
  refine Triple.bind (Q := fun pw d => pw = password ∧ d = d₀)
    (Triple.pure fun d hd => ⟨rfl, hd⟩) fun pw => Triple.of_fact fun hpw => ?_
  subst hpw
  refine Triple.bind (Triple.get (Q := fun seen d => seen = d₀ ∧ d = d₀) fun d hd => ⟨hd, hd⟩)
    fun seen => Triple.of_fact fun hseen => ?_
  subst hseen
  by_cases hplain : seen.pathExists file.plain = true
  · rw [if_pos hplain]
    by_cases hsealed : seen.pathExists file.sealedPath = true
    · rw [if_pos hsealed]
      exact Triple.raise fun d hd => Or.inl hd
    rw [if_neg hsealed]
    have hnone : seen.node file.sealedPath = none :=
      pathExists_eq_false.mp (by simpa using hsealed)
    refine ((readFile_triple f.read file.plain seen).post (fun _ _ h => h)
      (fun _ d hd => Or.inl hd.1)).mapErr.bind fun content => ?_
    refine (Triple.of_fact fun hcontent => ?_).pre fun _ h => ⟨h.2.2, h.1⟩
    refine Triple.bind (Q := fun envelope d =>
        sealedEnvelope p fastKdf draw pw file.plain content = .ok envelope ∧ d = seen)
      (Triple.ofExcept (fun _ h d hd => ⟨h, hd⟩) fun _ _ d hd => Or.inl hd)
      fun envelope => Triple.of_fact fun henvelope => ?_
    refine ((writeChecked_triple f.toStoreFaults file.sealedPath envelope _ seen).post
      (fun _ _ h => h.2) fun _ d h =>
        Or.inr ⟨content, envelope, hcontent, henvelope, .storing d h⟩).bind fun _ => ?_
    refine ((removeFile_triple f.remove file.plain _).post (fun _ _ h => h)
      fun _ d h => ?_).mapErr.bind fun _ => Triple.pure fun d hd =>
        Or.inr ⟨rfl, content, envelope, hcontent, hnone, henvelope, hd⟩
    rcases h with rfl | rfl
    · exact Or.inr ⟨content, envelope, hcontent, henvelope, .stored⟩
    · exact Or.inr ⟨content, envelope, hcontent, henvelope, .removed⟩
  · rw [if_neg hplain]
    have hnone : seen.node file.plain = none := pathExists_eq_false.mp (by simpa using hplain)
    by_cases hsealed : seen.pathExists file.sealedPath = true
    · rw [if_pos hsealed]
      exact Triple.pure fun d hd => Or.inl ⟨rfl, hd, hnone⟩
    · rw [if_neg hsealed]
      exact Triple.raise fun d hd => Or.inl hd

/-- A seal of a key file of which only the sealed form is there does nothing. -/
theorem seal_of_sealed (f : SealFaults) {d : VaultDisk} (hplain : d.node file.plain = none)
    (hsealed : d.node file.sealedPath ≠ none) :
    Vault.seal p fastKdf draw f (Vault.withPassword password) file d = (.ok false, d) := by
  have hp : ¬ d.pathExists file.plain = true := by simp [pathExists_eq_false.mpr hplain]
  have hs : d.pathExists file.sealedPath = true := pathExists_eq_true.mpr hsealed
  have hpw : (ofExcept (Vault.withPassword password).requiredPassword : Proc VaultDisk VaultError
      String) d = (.ok password, d) := rfl
  unfold Vault.seal
  rw [bind_of_ok hpw, bind_of_ok (get_apply d), if_neg hp, if_pos hs]
  rfl

/-! ## What a key file opens to -/

/-- `Vault.open` under the password returns `bytes`, whoever would be asked for another one, and
asks nobody. -/
def OpensTo (p : EnvelopePrims) (password : String) (file : KeyFile) (d : VaultDisk)
    (bytes : Bytes) : Prop :=
  ∀ (κ : Type) (prompt : Proc κ VaultError String) (caller : κ), ∃ wasSealed,
    Vault.open p prompt .none file ⟨Vault.withPassword password, caller, d⟩
      = (.ok ⟨bytes, wasSealed⟩, ⟨Vault.withPassword password, caller, d⟩)

theorem decrypt_of_password {κ : Type} {prompt : Proc κ VaultError String} {path : Path}
    {envelope bytes : Bytes} {caller : κ} {d : VaultDisk}
    (h : decryptBytes p envelope password = .ok bytes) :
    Vault.decrypt p prompt path envelope ⟨Vault.withPassword password, caller, d⟩
      = (.ok ⟨bytes, true⟩, ⟨Vault.withPassword password, caller, d⟩) := by
  unfold Vault.decrypt
  rw [bind_of_ok (get_apply _)]
  simp [Vault.withPassword, h, Except.toOption]

/-- A read in a session that is not disturbed. -/
theorem onDisk_readFile {κ : Type} {path : Path} {content : Bytes} {v : Vault} {caller : κ}
    {d : VaultDisk} (h : d.node path = some (.file content)) :
    Session.onDisk (mapErr (VaultError.io .read path) (readFile .none path)) ⟨v, caller, d⟩
      = (.ok content, ⟨v, caller, d⟩) := by
  have hread : mapErr (VaultError.io .read path) (readFile .none path) d = (.ok content, d) := by
    simp [mapErr, attempt, readFile, ioStep, bind_apply, h]
  unfold Session.onDisk
  rw [hread]

/-- A plaintext opens to what its seal would open to. -/
theorem opensTo_of_plain {d : VaultDisk} {content envelope bytes : Bytes}
    (hnode : d.node file.plain = some (.file content))
    (henvelope : sealedEnvelope p fastKdf draw password file.plain content = .ok envelope)
    (hbytes : decryptBytes p envelope password = .ok bytes) :
    OpensTo p password file d bytes := by
  intro κ prompt caller
  have hexists : d.pathExists file.plain = true := pathExists_eq_true.mpr (by simp [hnode])
  unfold Vault.open
  rw [bind_of_ok (get_apply _), if_pos hexists, bind_of_ok (onDisk_readFile hnode)]
  rcases sealedEnvelope_opens henvelope with ⟨hmark, rfl, -⟩ | ⟨hmark, hopen⟩
  · rw [if_pos hmark]
    exact ⟨true, decrypt_of_password hbytes⟩
  · rw [hopen] at hbytes
    rw [hmark, Except.ok.inj hbytes]
    exact ⟨false, rfl⟩

/-- A sealed form opens to what its envelope holds. -/
theorem opensTo_of_sealed {d : VaultDisk} {envelope bytes : Bytes}
    (hplain : d.node file.plain = none)
    (hsealed : d.node file.sealedPath = some (.file envelope))
    (hbytes : decryptBytes p envelope password = .ok bytes) :
    OpensTo p password file d bytes := by
  intro κ prompt caller
  have hp : ¬ d.pathExists file.plain = true := by simp [pathExists_eq_false.mpr hplain]
  have hs : d.pathExists file.sealedPath = true := pathExists_eq_true.mpr (by simp [hsealed])
  unfold Vault.open
  rw [bind_of_ok (get_apply _), if_neg hp, if_pos hs, bind_of_ok (onDisk_readFile hsealed)]
  exact ⟨true, decrypt_of_password hbytes⟩

/-! ## The key is kept -/

/-- Where the nodes are as `node` says, the key that `file` held with the plaintext `content` on
the disk `d₀` can be recovered: the plaintext is there, or the sealed form is an envelope that opens
to what the key file opened to. -/
def KeyKept (p : EnvelopePrims) (password : String) (file : KeyFile) (content : Bytes)
    (d₀ : VaultDisk) (node : Path → Option (Node UInt8)) : Prop :=
  node file.plain = some (.file content) ∨
    ∃ envelope bytes, node file.sealedPath = some (.file envelope) ∧
      decryptBytes p envelope password = .ok bytes ∧ OpensTo p password file d₀ bytes

/-- In every stage of a seal the key can be recovered from what the disk shows, and from what is
found after power was lost. -/
theorem SealStage.kept {f : SealFaults} {nodes : List (Path × Node UInt8)} {d : VaultDisk}
    {content envelope : Bytes} (h : SealStage f (Disk.mount nodes) file envelope d)
    (hplain : (Disk.mount nodes).node file.plain = some (.file content))
    (henvelope : sealedEnvelope p fastKdf draw password file.plain content = .ok envelope)
    {node : Path → Option (Node UInt8)} (hnode : node = d.node ∨ d.CrashImage node) :
    KeyKept p password file content (Disk.mount nodes) node := by
  -- a settled path is found as the disk shows it
  have hfound : ∀ q, d.unsettledAt q = none → node q = d.node q := fun q hq => by
    rcases hnode with rfl | hcrash
    · rfl
    · exact hcrash.settled hq
  have hne : file.plain ≠ file.sealedPath := (file.sealedPath_ne_plain).symm
  cases h with
  | storing d hleft =>
    obtain ⟨hsame, hsettled⟩ := hleft.node_of_ne hne
    exact Or.inl ((hfound _ hsettled).trans (hsame.trans hplain))
  | stored =>
    refine Or.inl ((hfound _ ?_).trans ?_)
    · rw [Disk.unsettledAt_settle, if_neg hne, Disk.unsettledAt_put, if_neg hne]
      rfl
    · rw [Disk.node_settle, Disk.node_put, if_neg hne, hplain]
  | removed =>
    obtain ⟨bytes, hbytes⟩ : ∃ bytes, decryptBytes p envelope password = .ok bytes := by
      rcases sealedEnvelope_opens henvelope with ⟨-, rfl, h⟩ | ⟨-, h⟩
      · exact h
      · exact ⟨_, h⟩
    refine Or.inr ⟨envelope, bytes, (hfound _ ?_).trans ?_, hbytes,
      opensTo_of_plain hplain henvelope hbytes⟩
    · -- the envelope was settled before the plaintext was removed
      rw [Disk.unsettledAt_drop_of_ne _ hne.symm, Disk.unsettledAt_settle, if_pos rfl]
    · rw [Disk.node_drop, if_neg hne.symm, Disk.node_settle, Disk.node_put_self]

/-- Sealing never loses a key. From any directory with a plaintext file, under any password and
with any fault in any step, the key can be recovered afterwards, also after a loss of power at
that point; and a seal that returns `true` leaves only a sealed form, which opens to what the key
file opened to before and which a further seal leaves alone. -/
theorem seal_keeps_key (p : EnvelopePrims) (fastKdf : Bool) (draw : Draw) (f : SealFaults)
    (password : String) (file : KeyFile) (nodes : List (Path × Node UInt8)) (content : Bytes)
    (hplain : (Disk.mount nodes).node file.plain = some (.file content)) :
    let run := Vault.seal p fastKdf draw f (Vault.withPassword password) file (Disk.mount nodes)
    (∀ node, (node = run.2.node ∨ run.2.CrashImage node) →
      KeyKept p password file content (Disk.mount nodes) node) ∧
    (run.1 = .ok true →
      run.2.node file.plain = none ∧
      (∃ bytes, OpensTo p password file (Disk.mount nodes) bytes ∧
        OpensTo p password file run.2 bytes) ∧
      ∀ fastKdf' draw' f', Vault.seal p fastKdf' draw' f' (Vault.withPassword password) file run.2
        = (.ok false, run.2)) := by
  intro run
  have hends := seal_triple p fastKdf draw f password file (Disk.mount nodes) _ rfl
  have huntouched : ∀ {d : VaultDisk}, d = Disk.mount nodes → ∀ {node},
      (node = d.node ∨ d.CrashImage node) →
      KeyKept p password file content (Disk.mount nodes) node := by
    rintro d rfl node (rfl | hcrash)
    · exact Or.inl hplain
    · exact Or.inl ((hcrash.settled rfl).trans hplain)
  have hstaged : ∀ {d : VaultDisk} {content' envelope : Bytes},
      (Disk.mount nodes).node file.plain = some (.file content') →
      sealedEnvelope p fastKdf draw password file.plain content' = .ok envelope →
      SealStage f (Disk.mount nodes) file envelope d → ∀ {node},
      (node = d.node ∨ d.CrashImage node) →
      KeyKept p password file content (Disk.mount nodes) node := by
    intro d content' envelope hcontent henvelope hstage node hnode
    have heq : content' = content := by simpa [hcontent] using hplain
    exact hstage.kept hplain (heq ▸ henvelope) hnode
  rcases hrun : run with ⟨o, d⟩
  rw [show Vault.seal p fastKdf draw f (Vault.withPassword password) file (Disk.mount nodes)
    = (o, d) from hrun] at hends
  rcases o with b | e | w
  · rcases hends with ⟨rfl, hd, -⟩ | ⟨rfl, content', envelope, hcontent, -, henvelope, hd⟩
    · exact ⟨fun node hnode => huntouched hd hnode, fun h => absurd h (by simp)⟩
    · have hstage : SealStage f (Disk.mount nodes) file envelope d := by
        rw [hd]
        exact .removed
      refine ⟨fun node hnode => hstaged hcontent henvelope hstage hnode, fun _ => ?_⟩
      have hgone : d.node file.plain = none := by rw [hd, Disk.node_drop_self]
      have hthere : d.node file.sealedPath = some (.file envelope) := by
        rw [hd, Disk.node_drop, if_neg file.sealedPath_ne_plain, Disk.node_settle,
          Disk.node_put_self]
      obtain ⟨bytes, hbytes⟩ : ∃ bytes, decryptBytes p envelope password = .ok bytes := by
        rcases sealedEnvelope_opens henvelope with ⟨-, rfl, h⟩ | ⟨-, h⟩
        · exact h
        · exact ⟨_, h⟩
      exact ⟨hgone, ⟨bytes, opensTo_of_plain hcontent henvelope hbytes,
        opensTo_of_sealed hgone hthere hbytes⟩,
        fun _ _ f' => seal_of_sealed f' hgone (by simp [hthere])⟩
  · refine ⟨fun node hnode => ?_, fun h => absurd h (by simp)⟩
    rcases hends with hd | ⟨content', envelope, hcontent, henvelope, hstage⟩
    · exact huntouched hd hnode
    · exact hstaged hcontent henvelope hstage hnode
  · refine ⟨fun node hnode => ?_, fun h => absurd h (by simp)⟩
    rcases hends with hd | ⟨content', envelope, hcontent, henvelope, hstage⟩
    · exact huntouched hd hnode
    · exact hstaged hcontent henvelope hstage hnode

/-! ## One seal -/

/-- A stand-in for base64: a character for each byte. -/
def sampleText (bytes : Bytes) : String := String.ofList (bytes.map fun b => Char.ofNat b.toNat)

def sampleBytes (s : String) : Bytes := s.toList.map fun c => UInt8.ofNat c.toNat

/-- A stand-in for the key derivation: the password, filled up with zeros. -/
def sampleKey (password : Bytes) : Key :=
  ⟨(password ++ List.replicate keyLen 0).take keyLen, by simp [keyLen]⟩

def sampleDraw : Draw :=
  ⟨List.replicate saltLen 0, ⟨List.replicate nonceLen 0, by decide⟩, by decide⟩

/-- Small stand-ins for the other packages. An envelope is a brace and its ciphertext, and a
ciphertext carries the first half of its key as the tag. -/
def samplePrims : EnvelopePrims where
  fromSlice bytes :=
    match bytes with
    | 0x7B :: rest => .ok (.obj
      [("bingle_encrypted", .posInt 1), ("kdf", .str "argon2id"), ("m", .posInt 8),
        ("t", .posInt 1), ("p", .posInt 1), ("salt", .str (sampleText sampleDraw.salt)),
        ("nonce", .str (sampleText sampleDraw.nonce.1)), ("ciphertext", .str (sampleText rest))])
    | _ => .error "expected value"
  toVecPretty j := .ok (0x7B :: sampleBytes (((j.get "ciphertext").bind Json.asStr).getD ""))
  b64Encode := sampleText
  b64Decode s := .ok (sampleBytes s)
  argon2Params _ := .ok ()
  argon2id _ password _ := .ok (sampleKey password)
  aesEncrypt key _ plaintext := .ok (key.1.take 16 ++ plaintext)
  aesDecrypt key _ ciphertext :=
    if ciphertext.take 16 = key.1.take 16 then some (ciphertext.drop 16) else none

/-- The stand-in for base64 is read back. -/
theorem sampleBytes_sampleText (bytes : Bytes) : sampleBytes (sampleText bytes) = bytes := by
  have hbyte : ∀ b : UInt8, UInt8.ofNat (Char.ofNat b.toNat).toNat = b := by
    intro b
    have hvalid : b.toNat.isValidChar := Or.inl (by have := b.toNat_lt; omega)
    have hchar : (Char.ofNat b.toNat).toNat = b.toNat := by
      unfold Char.ofNat
      rw [dif_pos hvalid]
      rfl
    rw [hchar, UInt8.ofNat_toNat]
  unfold sampleBytes sampleText
  rw [String.toList_ofList, List.map_map]
  conv_rhs => rw [← List.map_id bytes]
  exact List.map_congr_left fun b _ => hbyte b

/-- An envelope as the stand-ins read it. -/
def sampleJson (ciphertext : Bytes) : Json := .obj
  [("bingle_encrypted", .posInt 1), ("kdf", .str "argon2id"), ("m", .posInt 8), ("t", .posInt 1),
    ("p", .posInt 1), ("salt", .str (sampleText sampleDraw.salt)),
    ("nonce", .str (sampleText sampleDraw.nonce.1)), ("ciphertext", .str (sampleText ciphertext))]

/-- An envelope opens under a password exactly when its tag is the password's. -/
theorem decryptBytes_sample (ciphertext : Bytes) (password : String) :
    decryptBytes samplePrims (0x7B :: ciphertext) password
      = if ciphertext.take 16 = (sampleKey (utf8 password)).1.take 16 then
          .ok (ciphertext.drop 16)
        else .error .decryption := by
  have hjson : samplePrims.fromSlice (0x7B :: ciphertext) = .ok (sampleJson ciphertext) := rfl
  have hmark : hasMarker (sampleJson ciphertext) = true := rfl
  have hcost : envelopeCost (sampleJson ciphertext) = .ok ⟨8, 1, 1⟩ := rfl
  have hsalt : decodeField samplePrims (sampleJson ciphertext) "salt"
      = .ok (sampleBytes (sampleText sampleDraw.salt)) := rfl
  have hnonce : decodeField samplePrims (sampleJson ciphertext) "nonce"
      = .ok (sampleBytes (sampleText sampleDraw.nonce.1)) := rfl
  have htext : decodeField samplePrims (sampleJson ciphertext) "ciphertext"
      = .ok (sampleBytes (sampleText ciphertext)) := rfl
  have hkey : deriveKeyWith samplePrims password sampleDraw.salt ⟨8, 1, 1⟩
      = .ok (sampleKey (utf8 password)) := rfl
  rw [sampleBytes_sampleText] at hsalt hnonce htext
  unfold decryptBytes
  rw [hjson]
  simp only [Fallible.mapError_ok, bind, Except.bind, hmark, hcost, hsalt, hnonce, htext, hkey,
    Bool.not_true, Bool.false_eq_true, if_false, dif_pos sampleDraw.nonce.2]
  by_cases htag : ciphertext.take 16 = (sampleKey (utf8 password)).1.take 16
  · have hopen : samplePrims.aesDecrypt (sampleKey (utf8 password)) sampleDraw.nonce ciphertext
        = some (ciphertext.drop 16) := if_pos htag
    rw [if_pos htag, hopen]
  · have hopen : samplePrims.aesDecrypt (sampleKey (utf8 password)) sampleDraw.nonce ciphertext
        = none := if_neg htag
    rw [if_neg htag, hopen]

/-- Steps that go as they should. -/
def SealFaults.ok : SealFaults := ⟨⟨⟨.none, .none, .none⟩, .none, .none⟩, .none, .none⟩

/-- `a.key`. -/
def sampleFile : KeyFile := ⟨[[0x61, 0x2E, 0x6B, 0x65, 0x79]]⟩

/-- A file that is sealed, with every step going as it should; and a seal that crashes with three
bytes of the envelope written, which leaves a torn file beside the plaintext. -/
theorem seal_keeps_key_done_and_torn :
    let d := Disk.mount [(sampleFile.plain, .file [7, 8])]
    let run := Vault.seal samplePrims true sampleDraw .ok (Vault.withPassword "pw") sampleFile d
    let torn := Vault.seal samplePrims true sampleDraw { SealFaults.ok with write := .crash 3 }
      (Vault.withPassword "pw") sampleFile d
    (run.1 = .ok true ∧
      (∀ node, (node = run.2.node ∨ run.2.CrashImage node) →
        KeyKept samplePrims "pw" sampleFile [7, 8] d node) ∧
      run.2.node sampleFile.plain = none ∧
      ∃ bytes, OpensTo samplePrims "pw" sampleFile d bytes ∧
        OpensTo samplePrims "pw" sampleFile run.2 bytes) ∧
    torn.1 = .stop .crash ∧ torn.2.node sampleFile.sealedPath = some (.file [0x7B, 0x70, 0x77]) ∧
    ∀ node, (node = torn.2.node ∨ torn.2.CrashImage node) →
      KeyKept samplePrims "pw" sampleFile [7, 8] d node := by
  intro d run torn
  have hkept := seal_keeps_key samplePrims true sampleDraw .ok "pw" sampleFile
    [(sampleFile.plain, .file [7, 8])] [7, 8] (by decide)
  have htorn := seal_keeps_key samplePrims true sampleDraw { SealFaults.ok with write := .crash 3 }
    "pw" sampleFile [(sampleFile.plain, .file [7, 8])] [7, 8] (by decide)
  have hok : run.1 = .ok true := by decide
  have hcrash : torn.1 = .stop .crash := by decide
  have hbytes : torn.2.node sampleFile.sealedPath = some (.file [0x7B, 0x70, 0x77]) := by decide
  exact ⟨⟨hok, hkept.1, (hkept.2 hok).1, (hkept.2 hok).2.1⟩, hcrash, hbytes, htorn.1⟩

end BlockchainOps.AccountVault
