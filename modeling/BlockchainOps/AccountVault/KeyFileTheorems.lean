import BlockchainOps.AccountVault.KeyFile

/-!
# What a scan finds

A scan that goes through finds what a scan without faults finds, and that one always comes to an
end: the directories of a path are fewer than its components. `KeyFileIn` says which paths are those
of key files in a directory; the scan lists the key file at each of them and no other, and each once
(`discover_finds`). It goes through when the directory is one.
-/

namespace BlockchainOps.AccountVault

open Effect Proc Storage

/-! ## Faults -/

theorem collect_below (faults : ScanFaults) (recursive : Bool) :
    ∀ fuel dir, Below (collect faults recursive fuel dir) (collect .ok recursive fuel dir)
  | 0, _ => Below.refl _
  | fuel + 1, dir => by
    refine Below.bind (Below.mapErr (ioStep_below _ (Below.refl _))) fun entries =>
      Below.bind (Below.forEach (fun path => ?_) entries) fun _ => Below.refl _
    refine Below.bind (Below.mapErr (ioStep_below _ (Below.refl _))) fun _ =>
      Below.bind (Below.refl _) fun d => ?_
    split_ifs
    · exact collect_below faults recursive fuel path
    all_goals exact Below.refl _

/-- The key files a scan finds do not depend on its faults, when it goes through. -/
theorem discover_ok {faults : ScanFaults} {dir : Path} {recursive : Bool} {d : VaultDisk}
    {files : List KeyFile} (h : (discover faults dir recursive d).1 = .ok files) :
    (discover .ok dir recursive d).1 = .ok files := by
  have hbelow : Below (discover faults dir recursive) (discover .ok dir recursive) :=
    Below.bind (Below.refl _) fun _ => (collect_below faults recursive _ _).bind fun _ =>
      Below.refl _
  rw [hbelow d files _ (Prod.ext h rfl)]

/-- A scan that goes through, as a run. -/
theorem discover_apply {faults : ScanFaults} {dir : Path} {recursive : Bool} {d : VaultDisk}
    {files : List KeyFile} (h : (discover faults dir recursive d).1 = .ok files) :
    discover faults dir recursive d = (.ok files, d) :=
  Prod.ext h (discover_respects faults dir recursive d).symm

/-! ## The files found -/

theorem mem_insertKeyFile {found : List KeyFile} {file other : KeyFile} :
    other ∈ insertKeyFile found file ↔ other = file ∨ other ∈ found := by
  unfold insertKeyFile
  split_ifs with h
  · constructor
    · exact Or.inr
    · rintro (rfl | hmem)
      · exact h
      · exact hmem
  · exact List.mem_orderedInsert _

theorem mem_foldl_insertKeyFile {files found : List KeyFile} {file : KeyFile} :
    file ∈ files.foldl insertKeyFile found ↔ file ∈ files ∨ file ∈ found := by
  induction files generalizing found with
  | nil => simp
  | cons f files ih =>
    rw [List.foldl_cons, ih, mem_insertKeyFile, List.mem_cons]
    tauto

/-- The key file at a path where something stands is on the disk. -/
theorem exists_at {d : VaultDisk} {path : Path} (h : d.node path ≠ none) :
    (KeyFile.at path).exists d = true := by
  have hpath : d.pathExists path = true := by rwa [Disk.pathExists, Option.isSome_iff_ne_none]
  have hplain : (KeyFile.mk path).exists d = true := by simp [KeyFile.exists, hpath]
  unfold KeyFile.at
  rcases hname : path.getLast? with _ | name
  · exact hplain
  · by_cases hstr : pathIsStr path = true
    · simp only [if_pos hstr]
      rcases hsuffix : name.dropSuffix? sealedSuffix with _ | stripped
      · exact hplain
      · -- the path is the sealed path of the key file it is stripped to
        have hpath' : (KeyFile.mk (path.dropLast ++ [stripped])).sealedPath = path := by
          obtain ⟨suffix, hparts, heq⟩ := List.dropSuffix?_eq_some_iff.mp hsuffix
          obtain ⟨dir, rfl⟩ := List.getLast?_eq_some_iff.mp hname
          simp [KeyFile.sealedPath, hparts, eq_of_beq heq]
        simp [KeyFile.exists, hpath', hpath]
    · simp only [if_neg hstr]
      exact hplain

/-- The paths of a directory are one component longer, and something stands at each. -/
theorem mem_childrenOf {d : VaultDisk} {dir path : Path} (h : path ∈ childrenOf d dir) :
    path ∈ d.nodes.map Prod.fst ∧ path.length = dir.length + 1 ∧ d.node path ≠ none := by
  rw [childrenOf, List.mem_filter, Bool.and_eq_true, decide_eq_true_eq, decide_eq_true_eq] at h
  obtain ⟨hmem, hne, hdir⟩ := h
  refine ⟨hmem, ?_, (d.mem_nodes_iff path).mp hmem⟩
  have hpos : 0 < path.length := List.length_pos_iff.mpr hne
  rw [← hdir, List.length_dropLast]
  omega

theorem mem_childrenOf_iff {d : VaultDisk} {dir path : Path} :
    path ∈ childrenOf d dir ↔ d.node path ≠ none ∧ path ≠ [] ∧ path.dropLast = dir := by
  rw [childrenOf, List.mem_filter, Bool.and_eq_true, decide_eq_true_eq, decide_eq_true_eq,
    Disk.mem_nodes_iff]

/-- A file of a directory: `path` is that of a key file, in either form, in `dir` or, when
`recursive`, in a directory beneath it. -/
inductive KeyFileIn (d : VaultDisk) (recursive : Bool) : Path → Path → Prop
  | entry {dir path : Path} : path ∈ childrenOf d dir → d.isDir path = false →
      isKeyFileName (path.getLast?.getD []) = true → KeyFileIn d recursive dir path
  | beneath {dir sub path : Path} : recursive = true → sub ∈ childrenOf d dir →
      d.isDir sub = true → KeyFileIn d recursive sub path → KeyFileIn d recursive dir path

/-- What one entry of a directory contributes to a scan. -/
theorem keyFileIn_iff {d : VaultDisk} {recursive : Bool} {dir path : Path} :
    KeyFileIn d recursive dir path ↔ ∃ sub ∈ childrenOf d dir,
      (d.isDir sub = false ∧ isKeyFileName (sub.getLast?.getD []) = true ∧ path = sub) ∨
      (d.isDir sub = true ∧ recursive = true ∧ KeyFileIn d recursive sub path) := by
  constructor
  · intro h
    cases h with
    | entry hmem hdir hname => exact ⟨path, hmem, Or.inl ⟨hdir, hname, rfl⟩⟩
    | beneath hrec hmem hdir hin => exact ⟨_, hmem, Or.inr ⟨hdir, hrec, hin⟩⟩
  · rintro ⟨sub, hmem, ⟨hdir, hname, rfl⟩ | ⟨hdir, hrec, hin⟩⟩
    · exact .entry hmem hdir hname
    · exact .beneath hrec hmem hdir hin

/-- Something stands at the path of a key file, and its name is a key file's. -/
theorem KeyFileIn.node_ne_none {d : VaultDisk} {recursive : Bool} {dir path : Path}
    (h : KeyFileIn d recursive dir path) : d.node path ≠ none := by
  induction h with
  | entry hmem _ _ => exact (mem_childrenOf hmem).2.2
  | beneath _ _ _ _ ih => exact ih

theorem KeyFileIn.isKeyFileName {d : VaultDisk} {recursive : Bool} {dir path : Path}
    (h : KeyFileIn d recursive dir path) :
    AccountVault.isKeyFileName (path.getLast?.getD []) = true := by
  induction h with
  | entry _ _ hname => exact hname
  | beneath _ _ _ _ ih => exact ih

/-- The members of a list of lists, each described by an element of its own. -/
theorem mem_flatten_of_pairs {α β : Type} {C : α → β → Prop} {as : List α} {bs : List (List β)}
    (h : List.Forall₂ (fun a found => ∀ b, b ∈ found ↔ C a b) as bs) (b : β) :
    b ∈ bs.flatten ↔ ∃ a ∈ as, C a b := by
  induction h with
  | nil => simp
  | cons hhead _ ih =>
    rw [List.flatten_cons, List.mem_append, hhead, ih]
    simp

/-- What a scan without faults does: it changes nothing, finds the key files of the directory, and
fails only where there is no directory. -/
theorem collect_triple (recursive : Bool) (d₀ : VaultDisk) :
    ∀ fuel dir, (∀ path ∈ d₀.nodes.map Prod.fst, path.length < dir.length + fuel) → 0 < fuel →
      Triple (fun d => d = d₀) (collect .ok recursive fuel dir)
        (fun files d => d = d₀ ∧
          ∀ file, file ∈ files ↔ ∃ path, KeyFileIn d₀ recursive dir path ∧ file = KeyFile.at path)
        (fun e _ => e ≠ none ∧ isDirPath d₀ dir = false)
  | 0, _, _, hpos => absurd hpos (by omega)
  | fuel + 1, dir, hdeep, _ => by
    have hentries : Triple (fun d => d = d₀)
        (mapErr (VaultError.io .readDirectory dir) (readDir .none dir))
        (fun entries d => entries = childrenOf d₀ dir ∧ d = d₀ ∧ isDirPath d₀ dir = true)
        (fun e _ => e ≠ none ∧ isDirPath d₀ dir = false) := by
      refine Triple.mapErr (Triple.of_eq ?_)
      unfold readDir ioStep
      simp only [bind_of_ok (get_apply d₀)]
      by_cases h : isDirPath d₀ dir = true
      · rw [if_pos h]
        exact ⟨rfl, rfl, h⟩
      · rw [if_neg h]
        exact ⟨by simp, by simpa using h⟩
    refine hentries.bind fun entries => Triple.of_fact fun hentries => ?_
    subst hentries
    refine (Triple.of_fact fun hdirectory => ?_).pre fun _ h => ⟨h.2, h.1⟩
    have hfound : Triple (fun d => d = d₀)
        (forEach (collectEntry .ok (collect .ok recursive fuel) recursive) (childrenOf d₀ dir))
        (fun found d => d = d₀ ∧ List.Forall₂ (fun sub files => ∀ file, file ∈ files ↔
            ∃ path, ((d₀.isDir sub = false ∧ isKeyFileName (sub.getLast?.getD []) = true ∧
              path = sub) ∨ (d₀.isDir sub = true ∧ recursive = true ∧
                KeyFileIn d₀ recursive sub path)) ∧ file = KeyFile.at path)
          (childrenOf d₀ dir) found)
        (fun e _ => e ≠ none ∧ isDirPath d₀ dir = false) := by
      refine Triple.forEach_pairs fun sub hsub => ?_
      obtain ⟨hmem, hlen, -⟩ := mem_childrenOf hsub
      refine Triple.bind (Q := fun _ d => d = d₀) (Triple.mapErr (Triple.pure fun _ h => h))
        fun _ => ?_
      refine Triple.bind (Triple.get (Q := fun seen d => seen = d₀ ∧ d = d₀) fun d hd => ⟨hd, hd⟩)
        fun seen => Triple.of_fact fun hseen => ?_
      subst hseen
      split_ifs with hsubdir hrec hname
      · -- one directory deeper, one round less
        have hbound := hdeep sub hmem
        refine (collect_triple recursive seen fuel sub (fun other hother => ?_) (by omega)).post
          (fun files d h => ⟨h.1, fun file => ?_⟩) fun e _ h => ?_
        · have := hdeep other hother
          omega
        · rw [h.2 file]
          simp [hsubdir, hrec]
        · -- it is a directory, so reading it does not fail
          exact absurd h.2 (by simp [isDirPath, hsubdir])
      · exact Triple.pure fun d hd => ⟨hd, by simp [hsubdir, hrec]⟩
      · exact Triple.pure fun d hd => ⟨hd, by simp [hsubdir, hname]⟩
      · exact Triple.pure fun d hd => ⟨hd, by simp [hsubdir, hname]⟩
    refine hfound.bind fun found => Triple.pure fun d h => ⟨h.1, fun file => ?_⟩
    rw [mem_flatten_of_pairs h.2]
    constructor
    · rintro ⟨sub, hsub, path, hpath, hfile⟩
      exact ⟨path, keyFileIn_iff.mpr ⟨sub, hsub, hpath⟩, hfile⟩
    · rintro ⟨path, hin, hfile⟩
      obtain ⟨sub, hsub, hpath⟩ := keyFileIn_iff.mp hin
      exact ⟨sub, hsub, path, hpath, hfile⟩

theorem le_foldr_max {l : List ℕ} {n : ℕ} (h : n ∈ l) : n ≤ l.foldr max 0 := by
  induction l with
  | nil => simp at h
  | cons m l ih =>
    rcases List.mem_cons.mp h with rfl | hmem
    · exact le_max_left _ _
    · exact (ih hmem).trans (le_max_right _ _)

theorem insertKeyFile_nodup {found : List KeyFile} (h : found.Nodup) (file : KeyFile) :
    (insertKeyFile found file).Nodup := by
  unfold insertKeyFile
  split_ifs with hmem
  · exact h
  · exact (List.perm_orderedInsert _ file found).nodup_iff.mpr (List.nodup_cons.mpr ⟨hmem, h⟩)

theorem foldl_insertKeyFile_nodup {files found : List KeyFile} (h : found.Nodup) :
    (files.foldl insertKeyFile found).Nodup := by
  induction files generalizing found with
  | nil => exact h
  | cons file files ih => exact ih (insertKeyFile_nodup h file)

theorem discover_triple (dir : Path) (recursive : Bool) (d₀ : VaultDisk) :
    Triple (fun d => d = d₀) (discover .ok dir recursive)
      (fun files d => d = d₀ ∧ files.Nodup ∧
        ∀ file, file ∈ files ↔ ∃ path, KeyFileIn d₀ recursive dir path ∧ file = KeyFile.at path)
      (fun e _ => e ≠ none ∧ isDirPath d₀ dir = false) := by
  refine Triple.bind (Triple.get (Q := fun seen d => seen = d₀ ∧ d = d₀) fun d hd => ⟨hd, hd⟩)
    fun seen => Triple.of_fact fun hseen => ?_
  subst hseen
  refine (collect_triple recursive seen (scanFuel seen) dir (fun path hpath => ?_)
    (Nat.succ_pos _)).bind fun found => Triple.pure fun d h =>
      ⟨h.1, foldl_insertKeyFile_nodup List.nodup_nil, fun file => ?_⟩
  · obtain ⟨entry, hentry, rfl⟩ := List.mem_map.mp hpath
    have := le_foldr_max (List.mem_map_of_mem (f := fun n : Path × Node UInt8 => n.1.length) hentry)
    unfold scanFuel
    omega
  · rw [mem_foldl_insertKeyFile, h.2 file]
    simp

/-- A scan that meets no fault finds the key files or fails: it never runs out of rounds. -/
theorem discover_ne_stop (dir : Path) (recursive : Bool) (d : VaultDisk) (w : Stop) :
    (discover .ok dir recursive d).1 ≠ .stop w := by
  intro h
  have hends := discover_triple dir recursive d d rfl
  rw [show discover .ok dir recursive d = (.stop w, (discover .ok dir recursive d).2) from
    Prod.ext h rfl] at hends
  exact hends.1 rfl

/-- A scan of a directory that meets no fault goes through. -/
theorem discover_isOk {dir : Path} (recursive : Bool) {d : VaultDisk}
    (hdir : isDirPath d dir = true) : ∃ files, (discover .ok dir recursive d).1 = .ok files := by
  have hends := discover_triple dir recursive d d rfl
  rcases hrun : discover .ok dir recursive d with ⟨_ | e | w, d'⟩
  · exact ⟨_, rfl⟩
  all_goals
    rw [hrun] at hends
    exact absurd (hdir.symm.trans hends.2) (by simp)

/-- A scan lists the key files of the directory, each once. -/
theorem discover_finds {faults : ScanFaults} {dir : Path} {recursive : Bool} {d : VaultDisk}
    {files : List KeyFile} (h : (discover faults dir recursive d).1 = .ok files) :
    files.Nodup ∧
      ∀ file, file ∈ files ↔ ∃ path, KeyFileIn d recursive dir path ∧ file = KeyFile.at path :=
  ((discover_triple dir recursive d).of_ok rfl (discover_apply (discover_ok h))).2

/-- The files of a scan are in the order of their plaintext paths. -/
theorem insertKeyFile_inOrder {found : List KeyFile}
    (h : found.Pairwise fun a b => a.plain ≤ b.plain) (file : KeyFile) :
    (insertKeyFile found file).Pairwise fun a b => a.plain ≤ b.plain := by
  have htotal : Std.Total fun a b : KeyFile => a.plain ≤ b.plain :=
    ⟨fun a b => List.le_total a.plain b.plain⟩
  have htrans : IsTrans KeyFile fun a b => a.plain ≤ b.plain := ⟨fun _ _ _ => List.le_trans⟩
  unfold insertKeyFile
  split_ifs
  · exact h
  · exact h.orderedInsert _ _

theorem discover_inOrder {faults : ScanFaults} {dir : Path} {recursive : Bool} {d : VaultDisk}
    {files : List KeyFile} (h : (discover faults dir recursive d).1 = .ok files) :
    files.Pairwise fun a b => a.plain ≤ b.plain := by
  have hfold : ∀ (listed found : List KeyFile), (found.Pairwise fun a b => a.plain ≤ b.plain) →
      (listed.foldl insertKeyFile found).Pairwise fun a b => a.plain ≤ b.plain := by
    intro listed
    induction listed with
    | nil => exact fun _ hfound => hfound
    | cons file listed ih => exact fun found hfound => ih _ (insertKeyFile_inOrder hfound file)
  have htriple : Triple (fun _ : VaultDisk => True) (discover faults dir recursive)
      (fun files _ => files.Pairwise fun a b => a.plain ≤ b.plain) (fun _ _ => True) := by
    refine Triple.bind (Q := fun _ _ => True) (Triple.get fun _ h => h) fun seen => ?_
    refine Triple.bind (Q := fun _ _ => True) (fun s _ => ?_) fun found =>
      Triple.pure fun _ _ => hfold found [] List.Pairwise.nil
    rcases collect faults recursive (scanFuel seen) dir s with ⟨_ | _ | _, _⟩ <;> trivial
  exact htriple.of_ok trivial (discover_apply h)

/-- Every key file found has a name. -/
theorem plain_ne_nil_of_discover {faults : ScanFaults} {dir : Path} {recursive : Bool}
    {d : VaultDisk} {files : List KeyFile} (h : (discover faults dir recursive d).1 = .ok files)
    {file : KeyFile} (hfile : file ∈ files) : file.plain ≠ [] := by
  obtain ⟨path, hin, rfl⟩ := ((discover_finds h).2 file).mp hfile
  have hpath : path ≠ [] := by
    rintro rfl
    exact absurd hin.isKeyFileName (by decide)
  unfold KeyFile.at
  rcases hname : path.getLast? with _ | name
  · exact hpath
  · dsimp only
    split_ifs
    · split
      · simp
      · exact hpath
    · exact hpath

/-- Every key file found is on the disk. -/
theorem exists_of_discover {faults : ScanFaults} {dir : Path} {recursive : Bool} {d : VaultDisk}
    {files : List KeyFile} (h : (discover faults dir recursive d).1 = .ok files) {file : KeyFile}
    (hfile : file ∈ files) : file.exists d = true := by
  obtain ⟨path, hin, rfl⟩ := ((discover_finds h).2 file).mp hfile
  exact exists_at hin.node_ne_none

end BlockchainOps.AccountVault
