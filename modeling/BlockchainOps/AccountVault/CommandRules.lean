import BlockchainOps.AccountVault.Commands
import BlockchainOps.AccountVault.DiscoveryTheorems
import BlockchainOps.AccountVault.SealTheorems

/-!
# What a command checks, and what it comes to

Before a command writes it scans, asks for the password and checks that it opens what is sealed in
the tree already; none of this changes the disk. `sealCommand_triple` and `createCommand_triple`
are the rules for the two commands: one that is stopped leaves the disk as it was, and one that is
not goes as what it does then, with all that it has found before.
-/

namespace BlockchainOps.AccountVault

open Effect Proc Storage

/-! ## What is checked -/

variable (p : EnvelopePrims) (env : CommandEnv)

/-- The sealed form of `file` is an envelope that opens under `password`. -/
def OpensUnder (d : VaultDisk) (password : String) (file : KeyFile) : Prop :=
  ∃ envelope bytes, d.node file.sealedPath = some (.file envelope) ∧
    decryptBytes p envelope password = .ok bytes

/-- The reference file opens under the password. -/
def CommandEnv.ReferencePasses (reference : Option Path) (d : VaultDisk) (password : String) :
    Prop :=
  ∀ path, reference = some path → env.reference = .none ∧ ∃ envelope bytes,
    d.node path = some (.file envelope) ∧ decryptBytes p envelope password = .ok bytes

/-- Every key file of which only the sealed form is on disk opens under the password. -/
def CommandEnv.SealedPass (d : VaultDisk) (files : List KeyFile) (password : String) : Prop :=
  ∀ file ∈ files, file.isSealed d = true → env.check file = .none ∧ OpensUnder p d password file

/-- The scan and the checks of the command go through. -/
structure Command.Passes (c : Command) (d : VaultDisk) (files : List KeyFile) (password : String) :
    Prop where
  found : (discover env.scan c.scanned.1 c.scanned.2 d).1 = .ok files
  given : env.password = .ok password
  reference : env.ReferencePasses p c.reference d password
  sealed : env.SealedPass p d files password

/-- Before its write a `create` has found that it may make the key file, of this new account. -/
structure CommandEnv.Prepares (args : CreateArgs) (d : VaultDisk) (bytes : Bytes) : Prop where
  name : extension ((KeyFile.at args.file).plain.getLast?.getD []) = some accountExtension
  free : (KeyFile.at args.file).exists d = false
  directory : isDirPath d (KeyFile.at args.file).plain.dropLast = true
  prefixCheck : env.prefixCheck = .ok ()
  account : env.account = .ok bytes

variable {p : EnvelopePrims} {env : CommandEnv}

/-! ## The checks -/

theorem checkOpens_triple (f : Fault) (password : String) (path : Path) (d₀ : VaultDisk) :
    Triple (fun d => d = d₀) ((Vault.withPassword password).checkOpens p f path)
      (fun _ d => d = d₀ ∧ (f = .none ∧ ∃ envelope bytes,
        d₀.node path = some (.file envelope) ∧ decryptBytes p envelope password = .ok bytes))
      (fun _ d => d = d₀ ∧ ¬ (f = .none ∧ ∃ envelope bytes,
        d₀.node path = some (.file envelope) ∧ decryptBytes p envelope password = .ok bytes)) := by
  unfold Vault.checkOpens
  refine Triple.bind (Q := fun pw d => pw = password ∧ d = d₀)
    (Triple.pure fun d hd => ⟨rfl, hd⟩) fun pw => Triple.of_fact fun hpw => ?_
  subst hpw
  have hread : Triple (fun d => d = d₀) (mapErr (VaultError.io .read path) (readFile f path))
      (fun envelope d => (f = .none ∧ d₀.node path = some (.file envelope)) ∧ d = d₀)
      (fun _ d => d = d₀ ∧ ¬ (f = .none ∧ ∃ envelope bytes,
        d₀.node path = some (.file envelope) ∧ decryptBytes p envelope pw = .ok bytes)) := by
    refine Triple.mapErr ((readFile_triple f path d₀).post (fun _ _ h => ⟨h.2, h.1⟩) ?_)
    intro _ d h
    refine ⟨h.1, fun hpass => ?_⟩
    obtain ⟨hf, envelope, bytes, hnode, -⟩ := hpass
    exact h.2 ⟨hf, envelope, hnode⟩
  refine hread.bind fun envelope => Triple.of_fact fun henvelope => ?_
  rcases hdec : decryptBytes p envelope pw with e | bytes
  · refine Triple.raise fun d hd => ⟨hd, fun hpass => ?_⟩
    obtain ⟨-, other, bytes, hnode, hopen⟩ := hpass
    rw [henvelope.2, Option.some.injEq, Node.file.injEq] at hnode
    rw [← hnode, hdec] at hopen
    exact absurd hopen (by simp)
  · exact Triple.pure fun d hd => ⟨hd, henvelope.1, envelope, bytes, henvelope.2, hdec⟩

theorem checkReference_triple (reference : Option Path) (password : String) (d₀ : VaultDisk) :
    Triple (fun d => d = d₀) (checkReference p env (Vault.withPassword password) reference)
      (fun _ d => d = d₀ ∧ env.ReferencePasses p reference d₀ password)
      (fun _ d => d = d₀ ∧ ¬ env.ReferencePasses p reference d₀ password) := by
  rcases reference with _ | path
  · exact Triple.pure fun d hd => ⟨hd, fun path hpath => absurd hpath (by simp)⟩
  · refine (checkOpens_triple env.reference password path d₀).post (fun _ d h => ?_)
      fun _ d h => ⟨h.1, fun hpass => h.2 (hpass path rfl)⟩
    refine ⟨h.1, fun other hother => ?_⟩
    rw [← Option.some.inj hother]
    exact h.2

theorem checkSealed_triple (files : List KeyFile) (password : String) (d₀ : VaultDisk) :
    Triple (fun d => d = d₀) (checkSealed p env (Vault.withPassword password) files)
      (fun _ d => d = d₀ ∧ env.SealedPass p d₀ files password)
      (fun _ d => d = d₀ ∧ ¬ env.SealedPass p d₀ files password) := by
  unfold checkSealed
  refine Triple.bind (Triple.get (Q := fun seen d => seen = d₀ ∧ d = d₀) fun d hd => ⟨hd, hd⟩)
    fun seen => Triple.of_fact fun hseen => ?_
  subst hseen
  have hloop := Triple.forEach_check (fun file : KeyFile =>
    checkOpens_triple (p := p) (env.check file) password file.sealedPath seen)
    (files.filter fun file => file.isSealed seen)
  have hfailed : ∀ (e : Option VaultError) (d : VaultDisk), (d = seen ∧ ¬ ∀ file ∈ files.filter
      (fun file => file.isSealed seen), env.check file = .none ∧ OpensUnder p seen password file) →
      d = seen ∧ ¬ env.SealedPass p seen files password := by
    intro _ d h
    refine ⟨h.1, fun hpass => h.2 fun file hfile => ?_⟩
    obtain ⟨hmem, hsealed⟩ := List.mem_filter.mp hfile
    exact hpass file hmem hsealed
  refine (hloop.post (fun _ _ h => h) hfailed).bind fun _ => Triple.pure fun d h => ?_
  exact ⟨h.1, fun file hfile hsealed => h.2 file (List.mem_filter.mpr ⟨hfile, hsealed⟩)⟩

/-! ## The rules -/

section Rules

variable {d : VaultDisk} {Q : List Path → VaultDisk → Prop}
  {E : Option VaultError → VaultDisk → Prop}

/-- `seal` is stopped, has nothing to seal, or goes as the seals of the files of which the plaintext
is on disk. -/
theorem sealCommand_triple {args : SealArgs} (hstopped : ∀ e, E e d)
    (hnothing : ∀ files, (discover env.scan args.dir args.recursive d).1 = .ok files →
      files.filter (fun file => !file.isSealed d) = [] → Q [] d)
    (hseals : ∀ files password, (Command.seal args).Passes p env d files password →
      files.filter (fun file => !file.isSealed d) ≠ [] →
      Triple (fun s => s = d) (sealFiles p env (Vault.withPassword password)
        (files.filter fun file => !file.isSealed d)) Q E) :
    Triple (fun s => s = d) (sealCommand p env args) Q E := by
  have hstop : ∀ e s, s = d → E e s := fun e s hs => hs ▸ hstopped e
  unfold sealCommand
  -- all that comes before the seals only reads the disk
  refine (((discover_respects env.scan args.dir args.recursive).triple_eq d).post
    (fun _ _ h => h) hstop).bind fun files => Triple.of_fact fun hfiles => ?_
  refine Triple.bind (Triple.get (Q := fun seen s => seen = d ∧ s = d) fun _ h => ⟨h, h⟩)
    fun seen => Triple.of_fact fun hseen => ?_
  subst hseen
  by_cases hnone : files.filter (fun file => !file.isSealed seen) = []
  · rw [if_pos hnone]
    exact Triple.pure fun s hs => hs ▸ hnothing files hfiles hnone
  rw [if_neg hnone]
  refine Triple.bind (Q := fun password s => env.password = .ok password ∧ s = seen)
    (Triple.ofExcept (fun _ h _ hs => ⟨h, hs⟩) fun _ _ => hstop _) fun password =>
      Triple.of_fact fun hpassword => ?_
  refine ((checkReference_triple args.samePasswordAs password seen).post (fun _ _ h => ⟨h.2, h.1⟩)
    fun e s h => hstop e s h.1).bind fun _ => Triple.of_fact fun hreference => ?_
  refine ((checkSealed_triple files password seen).post (fun _ _ h => ⟨h.2, h.1⟩)
    fun e s h => hstop e s h.1).bind fun _ => Triple.of_fact fun hsealed => ?_
  exact hseals files password ⟨hfiles, hpassword, hreference, hsealed⟩ hnone

/-- The vault of a `create`: the disk is as it was, and the password is the one given. -/
theorem createVault_triple (args : CreateArgs) (dir : Path) (d₀ : VaultDisk) :
    Triple (fun d => d = d₀) (createVault p env args dir)
      (fun vault d => d = d₀ ∧
        ((args.plain = true ∧ vault = none) ∨ (args.plain = false ∧ ∃ files password,
          (discover env.scan dir false d₀).1 = .ok files ∧ env.password = .ok password ∧
          env.ReferencePasses p args.samePasswordAs d₀ password ∧
          env.SealedPass p d₀ files password ∧ vault = some (Vault.withPassword password))))
      (fun _ d => d = d₀) := by
  unfold createVault
  by_cases hplain : args.plain = true
  · rw [if_pos hplain]
    exact Triple.pure fun d hd => ⟨hd, Or.inl ⟨hplain, rfl⟩⟩
  rw [if_neg hplain]
  refine Triple.bind (Q := fun password d => env.password = .ok password ∧ d = d₀)
    (Triple.ofExcept (fun _ h d hd => ⟨h, hd⟩) fun _ _ _ hd => hd)
    fun password => Triple.of_fact fun hpassword => ?_
  refine ((checkReference_triple args.samePasswordAs password d₀).post (fun _ _ h => ⟨h.2, h.1⟩)
    fun _ _ h => h.1).bind fun _ => Triple.of_fact fun hreference => ?_
  refine ((discover_respects env.scan dir false).triple_eq d₀).bind fun files =>
    Triple.of_fact fun hfiles => ?_
  refine ((checkSealed_triple files password d₀).post (fun _ _ h => ⟨h.2, h.1⟩)
    fun _ _ h => h.1).bind fun _ => Triple.of_fact fun hsealed => Triple.pure fun d hd => ?_
  exact ⟨hd, Or.inr ⟨by simpa using hplain, files, password, hfiles, hpassword, hreference,
    hsealed, rfl⟩⟩

/-- `create` is stopped, or goes as the one file it writes. -/
theorem createCommand_triple {args : CreateArgs} (hstopped : ∀ e, E e d)
    (hplain : ∀ bytes, env.Prepares args d bytes → args.plain = true →
      Triple (fun s => s = d) (writeNewPlain (env.steps (KeyFile.at args.file)).toWriteFaults
        (KeyFile.at args.file) bytes) (fun path => Q [path]) E)
    (hsealed : ∀ files password bytes, (Command.create args).Passes p env d files password →
      env.Prepares args d bytes → args.plain = false →
      Triple (fun s => s = d) (Vault.sealNew p env.fastKdf (env.draw (KeyFile.at args.file))
        (env.steps (KeyFile.at args.file)).toStoreFaults (Vault.withPassword password)
        (KeyFile.at args.file) bytes) (fun path => Q [path]) E) :
    Triple (fun s => s = d) (createCommand p env args) Q E := by
  have hstop : ∀ e s, s = d → E e s := fun e s hs => hs ▸ hstopped e
  unfold createCommand
  by_cases hname : extension ((KeyFile.at args.file).plain.getLast?.getD []) ≠ some accountExtension
  · rw [if_pos hname]
    exact Triple.raise (hstop _)
  rw [if_neg hname]
  -- all that comes before the write only reads the disk
  refine Triple.bind (Triple.get (Q := fun seen s => seen = d ∧ s = d) fun _ h => ⟨h, h⟩)
    fun seen => Triple.of_fact fun hseen => ?_
  subst hseen
  split_ifs with hexists hdirectory
  · exact Triple.raise (hstop _)
  · exact Triple.raise (hstop _)
  refine Triple.bind (Q := fun _ s => env.prefixCheck = .ok () ∧ s = seen)
    (Triple.ofExcept (fun _ h _ hs => ⟨h, hs⟩) fun _ _ => hstop _) fun _ =>
      Triple.of_fact fun hprefix => ?_
  refine ((createVault_triple args _ seen).post (fun _ _ h => ⟨h.2, h.1⟩)
    hstop).bind fun vault => Triple.of_fact fun hvault => ?_
  refine Triple.bind (Q := fun bytes s => env.account = .ok bytes ∧ s = seen)
    (Triple.ofExcept (fun _ h _ hs => ⟨h, hs⟩) fun _ _ => hstop _) fun bytes =>
      Triple.of_fact fun haccount => ?_
  have hprepares : env.Prepares args seen bytes := ⟨Classical.not_not.mp hname,
    by simpa using hexists, by simpa using hdirectory, hprefix, haccount⟩
  rcases hvault with ⟨hclear, rfl⟩ | ⟨hclear, files, password, hfiles, hpassword, hreference,
    hpasses, rfl⟩
  · exact (hplain bytes hprepares hclear).bind fun _ => Triple.pure fun _ h => h
  · exact (hsealed files password bytes ⟨hfiles, hpassword, hreference, hpasses⟩ hprepares
      hclear).bind fun _ => Triple.pure fun _ h => h

end Rules

end BlockchainOps.AccountVault
