import BlockchainOps.AccountVault.Commands
import BlockchainOps.AccountVault.DiscoveryTheorems
import BlockchainOps.AccountVault.SealResidue

/-!
# Seals that end part-way

A creation of a sealed file that fails, or is cut off by a crash, may leave the file with a part of
the envelope, or with something else; `StoreFaults.left` says what is left there, and
`writeChecked_left` that every run leaves just that. A run over several files comes to the creation
of one when the files before it were sealed (`CommandEnv.Seals`), and these have no path in common
with it: so both can be read off the disk on which the run began (`sealEach_left`,
`sealEach_stages`).
-/

namespace BlockchainOps.AccountVault

open Effect Proc Storage

/-! ## What a creation leaves at its path -/

/-- What a creation of a sealed file leaves at its path: nothing, the envelope or a part of it, or
what was stored in its place and not removed again. -/
def StoreFaults.left (f : StoreFaults) (envelope : Bytes) : Option Bytes :=
  match f.create with
  | .fail => none
  | .crash => some []
  | .none =>
    match f.write with
    | .none => some envelope
    | .short n | .crash n => some (envelope.take n)
    | .garbled stored =>
      if stored ≠ envelope ∧ f.sync = .none ∧ f.reread = .none ∧ f.withdraw ≠ .fail then none
      else some stored

/-- The disk after a creation at `path`, where nothing stood: a file that was created is there, or
its removal may be undone. -/
structure StoreFaults.LeftAt (f : StoreFaults) (d₀ : VaultDisk) (path : Path) (envelope : Bytes)
    (d : VaultDisk) : Prop where
  node : d.node path = (f.left envelope).map .file
  trace : f.create ≠ .fail → d.node path ≠ none ∨ d.unsettledAt path ≠ none

section Creation

variable {f : StoreFaults} {d₀ : VaultDisk} {path : Path} {envelope stored : Bytes}

theorem StoreFaults.leftAt_put (h : f.left envelope = some stored) :
    f.LeftAt d₀ path envelope (d₀.put path stored) where
  node := by rw [h, Disk.node_put_self]; rfl
  trace _ := Or.inl (by simp)

theorem StoreFaults.leftAt_settle (h : f.left envelope = some stored) :
    f.LeftAt d₀ path envelope ((d₀.put path stored).settle path) where
  node := by rw [h, Disk.node_settle, Disk.node_put_self]; rfl
  trace _ := Or.inl (by simp)

theorem StoreFaults.leftAt_drop (h : f.left envelope = none) :
    f.LeftAt d₀ path envelope (((d₀.put path stored).settle path).drop path) where
  node := by rw [h, Disk.node_drop_self]; rfl
  trace _ := by
    have hnode : ((d₀.put path stored).settle path).node path = some (.file stored) := by simp
    have hsettled : ((d₀.put path stored).settle path).unsettledAt path = none := by
      rw [Disk.unsettledAt_settle, if_pos rfl]
    rw [Disk.unsettledAt_drop_self hnode hsettled]
    exact Or.inr (by simp)

/-- What is left once the file was created and the write reported success. -/
theorem StoreFaults.left_of_stored (hcreate : f.create = .none)
    (hstored : f.write.reported envelope = some stored) :
    f.left envelope
      = if stored ≠ envelope ∧ f.sync = .none ∧ f.reread = .none ∧ f.withdraw ≠ .fail then none
        else some stored := by
  unfold StoreFaults.left
  rw [hcreate]
  rcases hwrite : f.write with _ | n | n | other <;> rw [hwrite] at hstored
  · obtain rfl := Option.some.inj hstored
    rw [if_neg fun h => h.1 rfl]
  · exact absurd hstored (by simp [WriteFault.reported])
  · exact absurd hstored (by simp [WriteFault.reported])
  · obtain rfl := Option.some.inj hstored
    rfl

/-- A file that is not created leaves the disk as it was. -/
theorem writeChecked_refused {f : StoreFaults} (hcreate : f.create = .fail) (path : Path)
    (envelope : Bytes) (mismatch : VaultError) (d₀ : VaultDisk) :
    Triple (fun d => d = d₀) (writeChecked f path envelope mismatch) (fun _ _ => False)
      (fun _ d => d = d₀) := by
  unfold writeChecked writePrivate
  have hrefused : Triple (fun d => d = d₀)
      (mapErr (VaultError.io .create path) (createNew f.create path)) (fun _ _ => False)
      (fun _ d => d = d₀) := by
    rw [hcreate]
    exact Triple.mapErr (Triple.raise fun _ hd => hd)
  exact (hrefused.bind_never).bind_never

/-- A creation whose file is written and synced has stored what the write reported; one that ends
before leaves what its faults say. -/
theorem writePrivate_left (hnone : d₀.node path = none) :
    Triple (fun d => d = d₀) (writePrivate f.toWriteFaults path envelope)
      (fun _ d => ∃ stored, f.Stores envelope stored ∧ d = (d₀.put path stored).settle path)
      (fun _ d => f.LeftAt d₀ path envelope d) := by
  unfold writePrivate
  have hcreated : Triple (fun d => d = d₀)
      (mapErr (VaultError.io .create path) (createNew f.create path))
      (fun _ d => f.create = .none ∧ d = d₀.put path [])
      (fun _ d => f.LeftAt d₀ path envelope d) := by
    refine Triple.mapErr (Triple.of_eq ?_)
    rcases hcreate : f.create
    · rw [createNew_none hnone]
      exact ⟨rfl, rfl⟩
    · exact ⟨by rw [StoreFaults.left, hcreate]; exact hnone, fun h => absurd hcreate h⟩
    · rw [createNew_crash hnone]
      exact StoreFaults.leftAt_put (by rw [StoreFaults.left, hcreate])
  refine hcreated.bind fun _ => Triple.of_fact fun hcreate => ?_
  have hwritten : Triple (fun d => d = d₀.put path [])
      (mapErr (VaultError.io .write path) (writeAll f.write path envelope))
      (fun _ d => ∃ stored, f.write.reported envelope = some stored ∧ d = d₀.put path stored)
      (fun _ d => f.LeftAt d₀ path envelope d) := by
    refine Triple.mapErr (Triple.of_eq ?_)
    rcases hwrite : f.write with _ | n | n | stored
    · exact ⟨envelope, rfl, Disk.put_put d₀ path [] envelope⟩
    · show f.LeftAt d₀ path envelope ((d₀.put path []).put path (envelope.take n))
      rw [Disk.put_put]
      exact StoreFaults.leftAt_put (by rw [StoreFaults.left, hcreate, hwrite])
    · show f.LeftAt d₀ path envelope ((d₀.put path []).put path (envelope.take n))
      rw [Disk.put_put]
      exact StoreFaults.leftAt_put (by rw [StoreFaults.left, hcreate, hwrite])
    · exact ⟨stored, rfl, Disk.put_put d₀ path [] stored⟩
  refine hwritten.bind fun _ => Triple.exists_pre fun stored => Triple.of_fact fun hstored => ?_
  have hleft := StoreFaults.left_of_stored (f := f) hcreate hstored
  refine Triple.mapErr (Triple.of_eq ?_)
  rcases hsync : f.sync
  · exact ⟨stored, ⟨hcreate, hstored, hsync⟩, rfl⟩
  · rw [if_neg (by simp [hsync])] at hleft
    exact StoreFaults.leftAt_put hleft
  · rw [if_neg (by simp [hsync])] at hleft
    exact StoreFaults.leftAt_settle hleft

/-- A creation leaves what its faults say, however it ends. -/
theorem writeChecked_left (envelope : Bytes) (hnone : d₀.node path = none) (mismatch : VaultError) :
    Triple (fun d => d = d₀) (writeChecked f path envelope mismatch)
      (fun _ d => f.LeftAt d₀ path envelope d) (fun _ d => f.LeftAt d₀ path envelope d) := by
  unfold writeChecked
  refine (writePrivate_left hnone).bind fun _ => Triple.exists_pre fun stored =>
    Triple.of_fact fun hstores => ?_
  have hleft := StoreFaults.left_of_stored (f := f) hstores.1 hstores.2.1
  have hfile : ((d₀.put path stored).settle path).node path = some (.file stored) := by simp
  have hread : Triple (fun d => d = (d₀.put path stored).settle path)
      (mapErr (VaultError.io .reread path) (readFile f.reread path))
      (fun written d => (f.reread = .none ∧ written = stored) ∧
        d = (d₀.put path stored).settle path)
      (fun _ d => f.LeftAt d₀ path envelope d) := by
    refine Triple.mapErr ((readFile_triple f.reread path _).post (fun written d h => ?_)
      fun _ d h => ?_)
    · rw [hfile, Option.some.injEq, Node.file.injEq] at h
      exact ⟨⟨h.2.1, h.2.2.symm⟩, h.1⟩
    · rw [h.1]
      rw [if_neg fun hgone => h.2 ⟨hgone.2.2.1, stored, hfile⟩] at hleft
      exact StoreFaults.leftAt_settle hleft
  refine hread.bind fun written => Triple.of_fact fun hwritten => ?_
  obtain ⟨hreread, rfl⟩ := hwritten
  by_cases hsame : written = envelope
  · rw [if_pos hsame]
    rw [if_neg fun hgone => hgone.1 hsame] at hleft
    exact Triple.pure fun d hd => hd ▸ StoreFaults.leftAt_settle hleft
  · -- the file differs, and is removed unless that fails without a trace
    rw [if_neg hsame]
    refine Triple.bind (Q := fun _ d => f.LeftAt d₀ path envelope d)
      (Triple.attempt (Triple.of_eq ?_)) fun _ => Triple.raise fun _ h => h
    have hremoved : removeFile .none path ((d₀.put path written).settle path)
        = (.ok (), ((d₀.put path written).settle path).drop path) :=
      (removeFile_ok_iff hfile).mpr ⟨rfl, rfl⟩
    rcases hwithdraw : f.withdraw
    · rw [if_pos ⟨hsame, hstores.2.2, hreread, by simp [hwithdraw]⟩] at hleft
      rw [hremoved]
      exact StoreFaults.leftAt_drop hleft
    · rw [if_neg fun hgone => hgone.2.2.2 hwithdraw] at hleft
      exact StoreFaults.leftAt_settle hleft
    · rw [if_pos ⟨hsame, hstores.2.2, hreread, by simp [hwithdraw]⟩] at hleft
      rw [show removeFile .crash path ((d₀.put path written).settle path)
        = (.stop .crash, ((d₀.put path written).settle path).drop path) from ioStep_crash hremoved]
      exact StoreFaults.leftAt_drop hleft

end Creation

/-! ## What a seal leaves -/

variable (p : EnvelopePrims) (env : CommandEnv)

/-- The seal of `file` comes to create its sealed form, which is to hold `envelope`. -/
structure CommandEnv.Creates (d : VaultDisk) (password : String) (file : KeyFile)
    (envelope : Bytes) : Prop where
  plain : ∃ content, d.node file.plain = some (.file content) ∧
    sealedEnvelope p env.fastKdf (env.draw file) password file.plain content = .ok envelope
  absent : d.node file.sealedPath = none
  read : (env.steps file).read = .none
  create : (env.steps file).create ≠ .fail

/-- The seal of `file` goes through. -/
def CommandEnv.Seals (d : VaultDisk) (password : String) (file : KeyFile) : Prop :=
  ∃ envelope, env.Creates p d password file envelope ∧
    (env.steps file).Stores envelope envelope ∧ (env.steps file).reread = .none ∧
    (env.steps file).remove = .none

/-- What the seal of `file` leaves once its sealed form was created. -/
structure CommandEnv.SealLeft (file : KeyFile) (envelope : Bytes) (d : VaultDisk) : Prop where
  node : d.node file.sealedPath = ((env.steps file).left envelope).map .file
  trace : d.node file.sealedPath ≠ none ∨ d.unsettledAt file.sealedPath ≠ none

/-- The seal of a key file, as a command makes it. -/
def CommandEnv.sealFile (password : String) (file : KeyFile) : Proc VaultDisk VaultError Bool :=
  Vault.seal p env.fastKdf (env.draw file) (env.steps file) (Vault.withPassword password) file

variable {p env} {d d' : VaultDisk} {password : String} {file : KeyFile} {envelope : Bytes}

theorem CommandEnv.Creates.plain_ne_none (h : env.Creates p d password file envelope) :
    d.node file.plain ≠ none := by
  obtain ⟨content, hcontent, -⟩ := h.plain
  rw [hcontent]
  exact Option.some_ne_none _

theorem sealFile_true_iff : env.sealFile p password file d = (.ok true, d') ↔
    ∃ envelope, env.Creates p d password file envelope ∧
      (env.steps file).Stores envelope envelope ∧ (env.steps file).reread = .none ∧
      (env.steps file).remove = .none ∧
      d' = ((d.put file.sealedPath envelope).settle file.sealedPath).drop file.plain := by
  have hpw : (ofExcept (Vault.withPassword password).requiredPassword : Proc VaultDisk VaultError
      String) d = (.ok password, d) := rfl
  have hstill : ∀ content, d.node file.plain = some (.file content) → ∀ stored,
      ((d.put file.sealedPath stored).settle file.sealedPath).node file.plain
        = some (.file content) := by
    intro content hcontent stored
    rw [Disk.node_settle, Disk.node_put, if_neg file.sealedPath_ne_plain.symm, hcontent]
  unfold CommandEnv.sealFile Vault.seal
  rw [bind_of_ok hpw, bind_of_ok (get_apply d)]
  constructor
  · intro hrun
    split_ifs at hrun with hplain hsealed
    · exact absurd hrun (by simp)
    · simp only [bind_ok_iff, mapErr_ok_iff, readFile_ok_iff, ofExcept_ok_iff, writeChecked_ok_iff]
        at hrun
      obtain ⟨content, _, ⟨hread, hcontent, rfl⟩, envelope, _, ⟨henvelope, rfl⟩, -, _,
        ⟨hnone, hstores, hreread, rfl⟩, _, _, hremoved, hlast⟩ := hrun
      obtain ⟨hremove, rfl⟩ := (removeFile_ok_iff (hstill content hcontent envelope)).mp hremoved
      refine ⟨envelope, ⟨⟨content, hcontent, henvelope⟩, hnone, hread, ?_⟩, hstores, hreread,
        hremove, ?_⟩
      · rw [hstores.1]
        simp
      · exact (congrArg Prod.snd hlast).symm
    · exact absurd hrun (by simp)
    · exact absurd hrun (by simp)
  · rintro ⟨envelope, hcreates, hstores, hreread, hremove, rfl⟩
    obtain ⟨content, hcontent, henvelope⟩ := hcreates.plain
    have hplain : d.pathExists file.plain = true := pathExists_eq_true.mpr (by simp [hcontent])
    have habsent : ¬ d.pathExists file.sealedPath = true := by
      simp [pathExists_eq_false.mpr hcreates.absent]
    rw [if_pos hplain, if_neg habsent]
    simp only [bind_ok_iff, mapErr_ok_iff, readFile_ok_iff, ofExcept_ok_iff, writeChecked_ok_iff]
    refine ⟨content, d, ⟨hcreates.read, hcontent, rfl⟩, envelope, d, ⟨henvelope, rfl⟩, (), _,
      ⟨hcreates.absent, hstores, hreread, rfl⟩, (), _,
      (removeFile_ok_iff (hstill content hcontent envelope)).mpr ⟨hremove, rfl⟩, rfl⟩

/-- The removal of the plaintext leaves the sealed path alone. -/
theorem removePlain_left (file : KeyFile) (envelope : Bytes) :
    Triple (env.SealLeft file envelope)
      (mapErr (VaultError.io .remove file.plain) (removeFile (env.steps file).remove file.plain))
      (fun _ s => env.SealLeft file envelope s) (fun _ s => env.SealLeft file envelope s) := by
  intro s hleft
  refine Triple.ends_of_last ?_
  have hsame : Respects (Disk.SameAt (β := UInt8) file.sealedPath)
      (mapErr (VaultError.io .remove file.plain)
        (removeFile (env.steps file).remove file.plain)) :=
    Respects.mapErr (removeFile_sameAt _ file.sealedPath_ne_plain)
  obtain ⟨hnode, hunsettled⟩ := hsame s
  exact ⟨hnode.trans hleft.node, by rw [hnode, hunsettled]; exact hleft.trace⟩

/-- A seal has not come to create the sealed form, or leaves what its faults say. -/
theorem sealFile_triple (p : EnvelopePrims) (env : CommandEnv) (password : String) (file : KeyFile)
    (d : VaultDisk) :
    Triple (fun s => s = d) (env.sealFile p password file)
      (fun b s => (b = false ∧ d.node file.plain = none) ∨
        (b = true ∧ ∃ envelope, env.Creates p d password file envelope ∧
          env.SealLeft file envelope s))
      (fun _ s => (s = d ∧ ∀ envelope, ¬ env.Creates p d password file envelope) ∨
        ∃ envelope, env.Creates p d password file envelope ∧ env.SealLeft file envelope s) := by
  unfold CommandEnv.sealFile Vault.seal
  refine Triple.bind (Q := fun pw s => pw = password ∧ s = d)
    (Triple.pure fun s hs => ⟨rfl, hs⟩) fun pw => Triple.of_fact fun hpw => ?_
  subst hpw
  refine Triple.bind (Triple.get (Q := fun seen s => seen = d ∧ s = d) fun s hs => ⟨hs, hs⟩)
    fun seen => Triple.of_fact fun hseen => ?_
  subst hseen
  by_cases hplain : seen.pathExists file.plain = true
  · rw [if_pos hplain]
    by_cases hsealed : seen.pathExists file.sealedPath = true
    · rw [if_pos hsealed]
      refine Triple.raise fun s hs => Or.inl ⟨hs, fun envelope hcreates => ?_⟩
      exact pathExists_eq_true.mp hsealed hcreates.absent
    rw [if_neg hsealed]
    have hnone : seen.node file.sealedPath = none :=
      pathExists_eq_false.mp (by simpa using hsealed)
    have hread : Triple (fun s => s = seen)
        (mapErr (VaultError.io .read file.plain) (readFile (env.steps file).read file.plain))
        (fun content s => ((env.steps file).read = .none ∧
          seen.node file.plain = some (.file content)) ∧ s = seen)
        (fun _ s => (s = seen ∧ ∀ envelope, ¬ env.Creates p seen pw file envelope) ∨
          ∃ envelope, env.Creates p seen pw file envelope ∧ env.SealLeft file envelope s) := by
      refine Triple.mapErr ((readFile_triple _ file.plain seen).post (fun _ _ h => ⟨h.2, h.1⟩)
        fun _ s h => Or.inl ⟨h.1, fun envelope hcreates => ?_⟩)
      obtain ⟨content, hcontent, -⟩ := hcreates.plain
      exact h.2 ⟨hcreates.read, content, hcontent⟩
    refine hread.bind fun content => Triple.of_fact fun hcontent => ?_
    refine Triple.bind (Q := fun envelope s =>
        sealedEnvelope p env.fastKdf (env.draw file) pw file.plain content = .ok envelope ∧
          s = seen)
      (Triple.ofExcept (fun _ h s hs => ⟨h, hs⟩) fun e he s hs =>
        Or.inl ⟨hs, fun envelope hcreates => ?_⟩) fun envelope => Triple.of_fact fun henvelope => ?_
    · obtain ⟨content', hcontent', henvelope⟩ := hcreates.plain
      obtain rfl : content' = content := by simpa [hcontent.2] using hcontent'.symm
      exact absurd (he.symm.trans henvelope) (by simp)
    by_cases hcreate : (env.steps file).create = .fail
    · refine ((writeChecked_refused hcreate _ _ _ seen).post (fun _ _ h => h) fun _ s hs =>
        Or.inl ⟨hs, fun envelope hcreates => hcreates.create hcreate⟩).bind_never
    have hcreates : env.Creates p seen pw file envelope :=
      ⟨⟨content, hcontent.2, henvelope⟩, hnone, hcontent.1, hcreate⟩
    have hstored : Triple (fun s => s = seen) (writeChecked (env.steps file).toStoreFaults
          file.sealedPath envelope (.notReadBack file.sealedPath file.plain))
        (fun _ s => env.SealLeft file envelope s)
        (fun _ s => (s = seen ∧ ∀ envelope, ¬ env.Creates p seen pw file envelope) ∨
          ∃ envelope, env.Creates p seen pw file envelope ∧ env.SealLeft file envelope s) :=
      (writeChecked_left envelope hnone _).post (fun _ s h => ⟨h.node, h.trace hcreate⟩)
        fun _ s h => Or.inr ⟨envelope, hcreates, h.node, h.trace hcreate⟩
    have hremoved : Triple (env.SealLeft file envelope)
        (mapErr (VaultError.io .remove file.plain) (removeFile (env.steps file).remove file.plain)
          >>= fun _ => (pure true : Proc VaultDisk VaultError Bool))
        (fun b s => b = true ∧ env.SealLeft file envelope s)
        (fun _ s => env.SealLeft file envelope s) :=
      (removePlain_left file envelope).bind fun _ => Triple.pure fun _ h => ⟨rfl, h⟩
    exact hstored.bind fun _ => hremoved.post (fun _ _ h => Or.inr ⟨h.1, envelope, hcreates, h.2⟩)
      fun _ _ h => Or.inr ⟨envelope, hcreates, h⟩
  · rw [if_neg hplain]
    have hgone : seen.node file.plain = none := pathExists_eq_false.mp (by simpa using hplain)
    split_ifs
    · exact Triple.pure fun s hs => Or.inl ⟨rfl, hgone⟩
    · exact Triple.raise fun s hs => Or.inl ⟨hs, fun _ hcreates => hcreates.plain_ne_none hgone⟩

/-! ## The paths of key files -/

/-- The key files have no path in common. -/
structure KeyFile.Apart (file other : KeyFile) : Prop where
  plain_plain : file.plain ≠ other.plain
  plain_sealed : file.plain ≠ other.sealedPath
  sealed_plain : file.sealedPath ≠ other.plain
  sealed_sealed : file.sealedPath ≠ other.sealedPath

/-- The parts of a sealed path. -/
theorem KeyFile.sealedPath_parts (file : KeyFile) :
    ∃ dir name, file.sealedPath = dir ++ [name ++ sealedSuffix] ∧
      (file.plain = dir ++ [name] ∨ (dir = [] ∧ name = [])) := by
  obtain ⟨plain⟩ := file
  rcases List.eq_nil_or_concat' plain with rfl | ⟨dir, name, rfl⟩
  · exact ⟨[], [], rfl, Or.inr ⟨rfl, rfl⟩⟩
  · exact ⟨dir, name, sealedPath_append dir name, Or.inl rfl⟩

/-- A key file with a name is known by its sealed path. -/
theorem KeyFile.sealedPath_injective {file other : KeyFile} (hfile : file.plain ≠ [])
    (hother : other.plain ≠ []) (h : file.sealedPath = other.sealedPath) : file = other := by
  obtain ⟨plain⟩ := file
  obtain ⟨plain'⟩ := other
  obtain ⟨dir, name, rfl⟩ := (List.eq_nil_or_concat' plain).resolve_left hfile
  obtain ⟨dir', name', rfl⟩ := (List.eq_nil_or_concat' plain').resolve_left hother
  rw [sealedPath_append, sealedPath_append] at h
  obtain ⟨rfl, hnames⟩ := List.append_singleton_inj.mp h
  rw [List.append_cancel_right hnames]

/-- A sealed path comes after the plaintext path. -/
theorem KeyFile.not_sealedPath_le (file : KeyFile) : ¬ file.sealedPath ≤ file.plain := by
  obtain ⟨plain⟩ := file
  rcases List.eq_nil_or_concat' plain with rfl | ⟨dir, name, rfl⟩
  · decide
  · rw [sealedPath_append]
    refine List.not_le.mpr (List.append_left_lt (List.cons_lt_cons_iff.mpr (Or.inl ?_)))
    have hlonger : name ++ [] < name ++ sealedSuffix :=
      List.append_left_lt (List.nil_lt_cons _ _)
    rwa [List.append_nil] at hlonger

section Frames

variable {p : EnvelopePrims} {fastKdf : Bool} {draw : Draw} {v : Vault} {file : KeyFile} {q : Path}

theorem writePrivate_sameAt {f : WriteFaults} {path : Path} (bytes : Bytes) (h : q ≠ path) :
    Respects (Disk.SameAt q) (writePrivate f path bytes) :=
  (Respects.mapErr (createNew_sameAt _ h)).bind fun _ =>
    (Respects.mapErr (writeAll_respects _ _ fun _ _ => Disk.sameAt_put _ h)).bind fun _ =>
      Respects.mapErr (syncAll_sameAt _ h)

theorem writeChecked_sameAt {f : StoreFaults} {path : Path} (envelope : Bytes)
    (mismatch : VaultError) (h : q ≠ path) :
    Respects (Disk.SameAt q) (writeChecked f path envelope mismatch) := by
  refine (writePrivate_sameAt envelope h).bind fun _ =>
    (Respects.mapErr (Respects.of_eq (readFile_respects _ _))).bind fun written => ?_
  by_cases hsame : written = envelope
  · rw [if_pos hsame]
    exact Respects.pure _
  · rw [if_neg hsame]
    exact (removeFile_sameAt _ h).attempt.bind fun _ => Respects.raise _

/-- A seal leaves the paths of other key files as they are. -/
theorem seal_sameAt {f : SealFaults} (hplain : q ≠ file.plain) (hsealed : q ≠ file.sealedPath) :
    Respects (Disk.SameAt q) (Vault.seal p fastKdf draw f v file) := by
  refine (Respects.ofExcept _).bind fun password => Respects.get.bind fun d => ?_
  split_ifs
  · exact Respects.raise _
  · exact (Respects.mapErr (Respects.of_eq (readFile_respects _ _))).bind fun bytes =>
      (Respects.ofExcept _).bind fun envelope =>
        (writeChecked_sameAt envelope _ hsealed).bind fun _ =>
          (Respects.mapErr (removeFile_sameAt _ hplain)).bind fun _ => Respects.pure _
  · exact Respects.pure _
  · exact Respects.raise _

/-- A seal removes nothing but the plaintext of its file. -/
theorem seal_present {f : SealFaults} {password : String} (hq : q ≠ file.plain) :
    Triple (fun d => d.node q ≠ none)
      (Vault.seal p fastKdf draw f (Vault.withPassword password) file)
      (fun _ d => d.node q ≠ none) (fun _ d => d.node q ≠ none) := by
  intro d₀ hthere
  have hstored : ∀ envelope,
      ((d₀.put file.sealedPath envelope).settle file.sealedPath).node q ≠ none := by
    intro envelope
    rw [Disk.node_settle, Disk.node_put]
    split_ifs
    · simp
    · exact hthere
  have hremoved : ∀ envelope,
      (((d₀.put file.sealedPath envelope).settle file.sealedPath).drop file.plain).node q
        ≠ none := by
    intro envelope
    rw [Disk.node_drop, if_neg hq]
    exact hstored envelope
  refine (seal_triple p fastKdf draw f password file d₀).post (fun b d h => ?_) (fun _ d h => ?_)
    d₀ rfl
  · rcases h with ⟨-, rfl, -⟩ | ⟨-, content, envelope, -, -, -, rfl⟩
    · exact hthere
    · exact hremoved envelope
  · rcases h with rfl | ⟨content, envelope, -, -, hstage⟩
    · exact hthere
    · rcases hstage with ⟨_, hleft⟩ | _ | _
      · by_cases hsame : q = file.sealedPath
        · -- where the sealed form was there already nothing has been written
          rcases hleft with rfl | ⟨hnone, -⟩
          · exact hthere
          · exact absurd (hsame ▸ hnone) hthere
        · rw [(hleft.node_of_ne hsame).1]
          exact hthere
      · exact hstored envelope
      · exact hremoved envelope

end Frames

/-- Both forms of a key file are as they were. -/
structure KeyFile.SameForms (file : KeyFile) (d d' : VaultDisk) : Prop where
  plain : d'.node file.plain = d.node file.plain
  sealed : d'.node file.sealedPath = d.node file.sealedPath

/-! ## Seals one after the other -/

section Runs

variable {p : EnvelopePrims} {env : CommandEnv} {password : String} {d s : VaultDisk}
  {file : KeyFile} {envelope : Bytes}

theorem CommandEnv.Creates.unique {other : Bytes} (h : env.Creates p d password file envelope)
    (h' : env.Creates p d password file other) : other = envelope := by
  obtain ⟨content, hcontent, henvelope⟩ := h.plain
  obtain ⟨content', hcontent', hother⟩ := h'.plain
  obtain rfl : content' = content := by simpa [hcontent] using hcontent'.symm
  exact Except.ok.inj (hother.symm.trans henvelope)

theorem CommandEnv.Creates.congr (h : env.Creates p d password file envelope)
    (hsame : file.SameForms d s) : env.Creates p s password file envelope where
  plain := by
    rw [hsame.plain]
    exact h.plain
  absent := hsame.sealed.trans h.absent
  read := h.read
  create := h.create

theorem CommandEnv.Seals.congr (h : env.Seals p d password file) (hsame : file.SameForms d s) :
    env.Seals p s password file := by
  obtain ⟨envelope, hcreates, hrest⟩ := h
  exact ⟨envelope, hcreates.congr hsame, hrest⟩

theorem KeyFile.SameForms.symm (h : file.SameForms d s) : file.SameForms s d :=
  ⟨h.plain.symm, h.sealed.symm⟩

theorem KeyFile.SameForms.trans {s' : VaultDisk} (h : file.SameForms d s)
    (h' : file.SameForms s s') : file.SameForms d s' :=
  ⟨h'.plain.trans h.plain, h'.sealed.trans h.sealed⟩

/-- A creation that stores the envelope leaves it. -/
theorem StoreFaults.left_of_stores {f : StoreFaults} (h : f.Stores envelope envelope) :
    f.left envelope = some envelope := by
  rw [StoreFaults.left_of_stored h.1 h.2.1, if_neg fun hgone => hgone.1 rfl]

/-- The seal of one key file leaves another one that has no path in common with it. -/
theorem sealFile_sameForms (p : EnvelopePrims) (env : CommandEnv) (password : String)
    (d : VaultDisk) {other : KeyFile} (h : file.Apart other) :
    other.SameForms d (env.sealFile p password file d).2 where
  plain := (seal_sameAt h.plain_plain.symm h.sealed_plain.symm d).1
  sealed := (seal_sameAt h.plain_sealed.symm h.sealed_sealed.symm d).1

/-- The step of a run that seals key files in order; the sealed paths that are printed. -/
def CommandEnv.sealEach (p : EnvelopePrims) (env : CommandEnv) (password : String)
    (file : KeyFile) : Proc VaultDisk VaultError (List Path) := do
  if ← env.sealFile p password file then pure [file.sealedPath] else pure []

theorem sealFiles_eq (files : List KeyFile) :
    sealFiles p env (Vault.withPassword password) files
      = (do let printed ← forEach (env.sealEach p password) files; pure printed.flatten) := rfl

/-- A seal that returns `true` lets the run go on. -/
theorem forEach_sealEach_cons {files : List KeyFile} {d' : VaultDisk}
    (h : env.sealFile p password file d = (.ok true, d')) :
    (forEach (env.sealEach p password) (file :: files) d).2
      = (forEach (env.sealEach p password) files d').2 := by
  have hstep : env.sealEach p password file d = (.ok [file.sealedPath], d') := bind_of_ok h
  show ((env.sealEach p password file >>= fun b =>
    forEach (env.sealEach p password) files >>= fun bs => pure (b :: bs)) d).2 = _
  rw [bind_of_ok hstep]
  exact bind_pure_snd _ _ _

/-- A seal that does not return ends the run. -/
theorem forEach_sealEach_of_not_ok {files : List KeyFile}
    (h : ∀ b, (env.sealFile p password file d).1 ≠ .ok b) :
    (forEach (env.sealEach p password) (file :: files) d).2
      = (env.sealFile p password file d).2 := by
  unfold forEach CommandEnv.sealEach
  rcases hrun : env.sealFile p password file d with ⟨b | e | w, d'⟩
  · exact absurd (congrArg Prod.fst hrun) (h b)
  · rw [bind_of_err (bind_of_err hrun)]
  · rw [bind_of_stop (bind_of_stop hrun)]

/-- Key files of which only the plaintext is there have no path in common. -/
theorem CommandEnv.Creates.apart {other : KeyFile} {otherEnvelope : Bytes}
    (h : env.Creates p d password file envelope)
    (h' : env.Creates p d password other otherEnvelope) (hne : file ≠ other)
    (hfile : file.plain ≠ []) (hother : other.plain ≠ []) : file.Apart other := by
  obtain ⟨content, hcontent, -⟩ := h.plain
  obtain ⟨content', hcontent', -⟩ := h'.plain
  refine ⟨fun heq => hne ?_, fun heq => ?_, fun heq => ?_, fun heq => hne ?_⟩
  · obtain ⟨plain⟩ := file
    exact congrArg KeyFile.mk heq
  · rw [heq, h'.absent] at hcontent
    exact absurd hcontent (by simp)
  · rw [← heq, h.absent] at hcontent'
    exact absurd hcontent' (by simp)
  · exact KeyFile.sealedPath_injective hfile hother heq

/-- A run that comes to a creation which does not leave the envelope ends with what that one
leaves. -/
theorem sealEach_left (before after : List KeyFile) : ∀ d,
    (∀ other ∈ before, env.Seals p d password other) →
    env.Creates p d password file envelope → file ∉ before → before.Nodup →
    file.plain ≠ [] → (∀ other ∈ before, other.plain ≠ []) →
    (env.steps file).left envelope ≠ some envelope →
    (forEach (env.sealEach p password) (before ++ file :: after) d).2.node file.sealedPath
      = ((env.steps file).left envelope).map .file := by
  induction before with
  | nil =>
    intro d _ hcreates _ _ _ _ hcut
    have hends := sealFile_triple p env password file d d rfl
    have hnot : ∀ b, (env.sealFile p password file d).1 ≠ .ok b := by
      intro b hb
      rcases hrun : env.sealFile p password file d with ⟨b' | e | w, s⟩ <;> rw [hrun] at hb hends
      · rcases hends with ⟨-, hgone⟩ | ⟨rfl, -⟩
        · exact hcreates.plain_ne_none hgone
        · obtain ⟨other, hother, hstores, -⟩ := sealFile_true_iff.mp hrun
          obtain rfl := hcreates.unique hother
          exact hcut (StoreFaults.left_of_stores hstores)
      · exact absurd hb (by simp)
      · exact absurd hb (by simp)
    rw [List.nil_append, forEach_sealEach_of_not_ok hnot]
    rcases hrun : env.sealFile p password file d with ⟨b | e | w, s⟩ <;> rw [hrun] at hends
    · exact absurd (congrArg Prod.fst hrun) (hnot b)
    all_goals
      rcases hends with ⟨-, hnone⟩ | ⟨other, hother, hleft⟩
      · exact absurd hcreates (hnone envelope)
      · rw [← hcreates.unique hother]
        exact hleft.node
  | cons other before ih =>
    intro d hbefore hcreates hnew hnodup hnil hnils hcut
    rw [List.mem_cons, not_or] at hnew
    rw [List.nodup_cons] at hnodup
    obtain ⟨sealed, hsealed, hstores, hreread, hremove⟩ := hbefore other List.mem_cons_self
    obtain ⟨d', hrun⟩ : ∃ d', env.sealFile p password other d = (.ok true, d') :=
      ⟨_, sealFile_true_iff.mpr ⟨sealed, hsealed, hstores, hreread, hremove, rfl⟩⟩
    have hother := hnils other List.mem_cons_self
    -- the other key files are still as they were on the first disk
    have hsame : ∀ {g : KeyFile} {e : Bytes}, env.Creates p d password g e → other ≠ g →
        g.plain ≠ [] → g.SameForms d d' := by
      intro g e hg hne hg'
      have hkept := sealFile_sameForms p env password d
        (hsealed.apart hg hne hother hg')
      rw [hrun] at hkept
      exact hkept
    rw [List.cons_append, forEach_sealEach_cons hrun]
    refine ih _ (fun g hg => ?_) (hcreates.congr (hsame hcreates (Ne.symm hnew.1) hnil)) hnew.2
      hnodup.2 hnil (fun g hg => hnils g (List.mem_cons_of_mem other hg)) hcut
    obtain ⟨e, he, hrest⟩ := hbefore g (List.mem_cons_of_mem other hg)
    have hkept := hsame he (fun heq => hnodup.1 (heq ▸ hg))
      (hnils g (List.mem_cons_of_mem other hg))
    exact ⟨e, he.congr hkept, hrest⟩

/-- A run whose first seal comes to create its sealed form leaves a trace of it. -/
theorem sealEach_trace {files : List KeyFile} (hcreates : env.Creates p d password file envelope)
    (hothers : ∀ other ∈ files, file.sealedPath ≠ other.plain) :
    (forEach (env.sealEach p password) (file :: files) d).2.node file.sealedPath ≠ none ∨
      (forEach (env.sealEach p password) (file :: files) d).2.unsettledAt file.sealedPath
        ≠ none := by
  have hends := sealFile_triple p env password file d d rfl
  rcases hrun : env.sealFile p password file d with ⟨b | e | w, s⟩ <;> rw [hrun] at hends
  · rcases hends with ⟨-, hgone⟩ | ⟨rfl, -⟩
    · exact absurd hgone hcreates.plain_ne_none
    obtain ⟨sealed, -, -, -, -, hs⟩ := sealFile_true_iff.mp hrun
    have hthere : s.node file.sealedPath ≠ none := by
      rw [hs, Disk.node_drop, if_neg file.sealedPath_ne_plain]
      simp
    rw [forEach_sealEach_cons hrun]
    -- no other plaintext is the new sealed form
    have hrest : Triple (fun d' => d'.node file.sealedPath ≠ none)
        (forEach (env.sealEach p password) files) (fun _ d' => d'.node file.sealedPath ≠ none)
        (fun _ d' => d'.node file.sealedPath ≠ none) := by
      refine (Triple.forEach_pairs (R := fun _ _ => True) fun other hother => ?_).post
        (fun _ _ h => h.1) fun _ _ h => h
      refine (seal_present (hothers other hother)).bind fun b => ?_
      cases b <;> exact Triple.pure fun _ h => ⟨h, trivial⟩
    exact Or.inl (hrest.last hthere)
  all_goals
    rw [forEach_sealEach_of_not_ok (by rw [hrun]; simp), hrun]
    rcases hends with ⟨-, hnone⟩ | ⟨other, -, hleft⟩
    · exact absurd hcreates (hnone envelope)
    · exact hleft.trace

/-- What each seal of a run keeps of the disk, the run keeps. Each file is sealed in its turn while
both its forms are as they were at first, and the files before it were sealed. -/
theorem sealEach_stages {R : VaultDisk → VaultDisk → Prop} [Std.Refl R] [IsTrans VaultDisk R]
    {files : List KeyFile}
    (hstep : ∀ before file after s, files = before ++ file :: after →
      (∀ other ∈ before, env.Seals p d password other) → file.SameForms d s →
        R s (env.sealFile p password file s).2)
    (hplain : ∀ file ∈ files, d.node file.plain ≠ none) (hnil : ∀ file ∈ files, file.plain ≠ [])
    (hnodup : files.Nodup) (horder : files.Pairwise fun a b => a.plain ≤ b.plain) :
    R d (forEach (env.sealEach p password) files d).2 := by
  have hrun : ∀ (after before : List KeyFile) (s : VaultDisk), files = before ++ after →
      (∀ other ∈ before, env.Seals p d password other) →
      (∀ file ∈ after, file.SameForms d s) →
      R s (forEach (env.sealEach p password) after s).2 := by
    intro after
    induction after with
    | nil =>
      intro before s _ _ _
      exact refl_of R s
    | cons file after ih =>
      intro before s hfiles hbefore hsame
      have hfirst := hstep before file after s hfiles hbefore (hsame file List.mem_cons_self)
      have hforms := hsame file List.mem_cons_self
      have hmem : ∀ other ∈ file :: after, other ∈ files := fun other hother =>
        hfiles ▸ List.mem_append_right before hother
      rw [hfiles] at hnodup horder
      obtain ⟨-, horder, -⟩ := List.pairwise_append.mp horder
      have hnew : file ∉ after := (List.nodup_cons.mp (List.nodup_append.mp hnodup).2.1).1
      have hapart : ∀ {e : Bytes} {other : KeyFile}, env.Creates p s password file e →
          other ∈ after → file.Apart other := by
        intro e other hcreates hother
        have hthere : s.node other.plain ≠ none := by
          rw [(hsame other (List.mem_cons_of_mem file hother)).plain]
          exact hplain other (hmem other (List.mem_cons_of_mem file hother))
        have hlater : file.plain ≤ other.plain := (List.pairwise_cons.mp horder).1 other hother
        refine ⟨fun heq => hnew ?_, fun heq => other.not_sealedPath_le (heq ▸ hlater),
          fun heq => hthere (heq ▸ hcreates.absent), fun heq => hnew ?_⟩
        · obtain ⟨plain⟩ := file
          obtain ⟨plain'⟩ := other
          obtain rfl : plain = plain' := heq
          exact hother
        · rw [KeyFile.sealedPath_injective (hnil file (hmem file List.mem_cons_self))
            (hnil other (hmem other (List.mem_cons_of_mem file hother))) heq]
          exact hother
      by_cases hok : ∃ b, (env.sealFile p password file s).1 = .ok b
      · obtain ⟨b, hb⟩ := hok
        have hends := sealFile_triple p env password file s s rfl
        rcases hseal : env.sealFile p password file s with ⟨b' | e | w, s'⟩ <;>
          rw [hseal] at hb hends
        · rcases hends with ⟨-, hgone⟩ | ⟨rfl, envelope, hcreates, -⟩
          · exact absurd (hforms.plain.symm.trans hgone)
              (hplain file (hmem file List.mem_cons_self))
          rw [forEach_sealEach_cons hseal]
          rw [hseal] at hfirst
          refine trans_of R hfirst (ih (before ++ [file]) s' (by simpa using hfiles) ?_ ?_)
          · intro other hother
            rcases List.mem_append.mp hother with hmem' | hlast
            · exact hbefore other hmem'
            · rw [List.mem_singleton.mp hlast]
              obtain ⟨sealed, hsealed, hstores, hreread, hremove, -⟩ := sealFile_true_iff.mp hseal
              exact ⟨sealed, hsealed.congr hforms.symm, hstores, hreread, hremove⟩
          · intro other hother
            have hkept := sealFile_sameForms p env password s
              (hapart hcreates hother)
            rw [hseal] at hkept
            exact (hsame other (List.mem_cons_of_mem file hother)).trans hkept
        · exact absurd hb (by simp)
        · exact absurd hb (by simp)
      · rw [forEach_sealEach_of_not_ok fun b hb => hok ⟨b, hb⟩]
        exact hfirst
  exact hrun files [] d rfl (by simp) fun file _ => ⟨rfl, rfl⟩

end Runs

end BlockchainOps.AccountVault
