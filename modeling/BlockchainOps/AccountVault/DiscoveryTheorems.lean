import BlockchainOps.AccountVault.KeyFileTheorems
import BlockchainOps.AccountVault.SealTheorems

/-!
# Key files keep their names when they are sealed

`KeyFile.at` strips `.enc` from a path that is UTF-8 as a whole; the scan asks the bytes of the
file name alone, and `sealedPath` appends `.enc` to whatever bytes there are. Where the path of
every key file is UTF-8 the three agree: a key file has one name in both forms, and a seal
leaves the listing as it was. A path that is not UTF-8 names another key file once `.enc` is
appended.
-/

namespace BlockchainOps.AccountVault

open Effect Proc Storage

/-! ## Bytes of a name -/

/-- The next byte of a started sequence is not an ASCII one. -/
theorem Utf8State.step_low {s t : Utf8State} {b : UInt8} (h : s.step b = some t) :
    0x80 ≤ t.low := by
  unfold step start at h
  split at h
  · split_ifs at h
    rw [← Option.some.inj h]
    exact UInt8.le_refl 0x80
  · split_ifs at h
    all_goals
      rw [← Option.some.inj h]
      decide

theorem Utf8State.foldlM_low {bytes : Bytes} {s t : Utf8State} (hs : 0x80 ≤ s.low)
    (h : bytes.foldlM step s = some t) : 0x80 ≤ t.low := by
  induction bytes generalizing s with
  | nil =>
    rw [List.foldlM_nil] at h
    rwa [← Option.some.inj h]
  | cons b bytes ih =>
    rw [List.foldlM_cons] at h
    obtain ⟨next, hstep, hrest⟩ := Option.bind_eq_some_iff.mp h
    exact ih (step_low hstep) hrest

/-- Appending `.enc` makes no difference to whether a name is UTF-8. -/
theorem validUtf8_append_sealedSuffix (name : Bytes) :
    validUtf8 (name ++ sealedSuffix) = validUtf8 name := by
  unfold validUtf8
  rw [List.foldlM_append]
  rcases h : name.foldlM Utf8State.step Utf8State.start with _ | ⟨pending, low, high⟩
  · rfl
  · have hlow : 0x80 ≤ low := Utf8State.foldlM_low (s := Utf8State.start) (by decide) h
    cases pending with
    | zero => rfl
    | succ n =>
      -- a continuation byte is due, and the dot is none
      have hdot : ¬ low ≤ 0x2E := fun hle => absurd (UInt8.le_trans hlow hle) (by decide)
      simp [sealedSuffix, Utf8State.step, hdot]

/-- A plaintext name: one whose extension is a key file's. -/
def IsPlainName (name : Bytes) : Prop := ∃ e ∈ keyFileExtensions, extension name = some e

/-- The last dot of a sealed name is that of `.enc`. -/
theorem extension_append_sealedSuffix (name : Bytes) :
    extension (name ++ sealedSuffix) = none ∨
      extension (name ++ sealedSuffix) = some [0x65, 0x6E, 0x63] := by
  unfold extension
  simp only [sealedSuffix, List.reverse_append, List.reverse_cons, List.reverse_nil, List.nil_append,
    List.cons_append]
  simp only [List.takeWhile_cons]
  split_ifs <;> simp_all

theorem IsPlainName.dropSuffix {name : Bytes} (h : IsPlainName name) :
    name.dropSuffix? sealedSuffix = none := by
  rcases hdrop : name.dropSuffix? sealedSuffix with _ | stripped
  · rfl
  · obtain ⟨suffix, rfl, heq⟩ := List.dropSuffix?_eq_some_iff.mp hdrop
    obtain ⟨e, he, hext⟩ := h
    rw [eq_of_beq heq] at hext
    rcases extension_append_sealedSuffix stripped with hnone | henc
    · exact absurd (hnone.symm.trans hext) (by simp)
    · rw [henc, Option.some.injEq] at hext
      rw [← hext] at he
      exact absurd he (by decide)

theorem dropSuffix_append_sealedSuffix (name : Bytes) :
    (name ++ sealedSuffix).dropSuffix? sealedSuffix = some name :=
  List.dropSuffix?_eq_some_iff.mpr ⟨sealedSuffix, rfl, BEq.rfl⟩

/-- A name is a key file's when it is a plaintext name once `.enc` is stripped. -/
theorem isKeyFileName_eq_true {name : Bytes} :
    isKeyFileName name = true ↔ IsPlainName ((name.dropSuffix? sealedSuffix).getD name) := by
  unfold isKeyFileName IsPlainName
  rcases extension ((name.dropSuffix? sealedSuffix).getD name) with _ | e
  · simp
  · simp

/-- A key file's name is a plaintext name, or one with `.enc` appended. -/
theorem isKeyFileName_iff {name : Bytes} :
    isKeyFileName name = true ↔
      ∃ plain, IsPlainName plain ∧ (name = plain ∨ name = plain ++ sealedSuffix) := by
  rw [isKeyFileName_eq_true]
  constructor
  · intro h
    rcases hdrop : name.dropSuffix? sealedSuffix with _ | stripped
    · rw [hdrop] at h
      exact ⟨name, h, Or.inl rfl⟩
    · rw [hdrop] at h
      obtain ⟨suffix, rfl, heq⟩ := List.dropSuffix?_eq_some_iff.mp hdrop
      exact ⟨stripped, h, Or.inr (by rw [eq_of_beq heq])⟩
  · rintro ⟨plain, hplain, rfl | rfl⟩
    · rw [hplain.dropSuffix]
      exact hplain
    · rw [dropSuffix_append_sealedSuffix]
      exact hplain

/-! ## The name of a key file -/

/-- The plaintext path of the key file at `path`, whatever bytes the path is made of. -/
def plainForm (path : Path) : Path :=
  match path.getLast? with
  | some name => path.dropLast ++ [(name.dropSuffix? sealedSuffix).getD name]
  | none => path

theorem at_of_isStr {path : Path} (h : pathIsStr path = true) :
    KeyFile.at path = ⟨plainForm path⟩ := by
  unfold KeyFile.at plainForm
  rcases hlast : path.getLast? with _ | name
  · rfl
  · obtain ⟨dir, rfl⟩ := List.getLast?_eq_some_iff.mp hlast
    simp only [if_pos h]
    rcases name.dropSuffix? sealedSuffix with _ | stripped
    · simp
    · rfl

/-- A path that is not UTF-8 is taken as it is. -/
theorem at_of_not_isStr {path : Path} (h : ¬ pathIsStr path = true) : KeyFile.at path = ⟨path⟩ := by
  unfold KeyFile.at
  rcases path.getLast? with _ | name
  · rfl
  · simp only [if_neg h]

@[simp] theorem plainForm_append (dir : Path) (name : Bytes) :
    plainForm (dir ++ [name]) = dir ++ [(name.dropSuffix? sealedSuffix).getD name] := by
  simp [plainForm]

@[simp] theorem sealedPath_append (dir : Path) (name : Bytes) :
    (KeyFile.mk (dir ++ [name])).sealedPath = dir ++ [name ++ sealedSuffix] := by
  simp [KeyFile.sealedPath]

/-- Appending `.enc` makes no difference to whether a path is UTF-8. -/
theorem pathIsStr_append_sealedSuffix (dir : Path) (name : Bytes) :
    pathIsStr (dir ++ [name ++ sealedSuffix]) = pathIsStr (dir ++ [name]) := by
  simp [pathIsStr, validUtf8_append_sealedSuffix]

/-- A path with a key file's name, by its plaintext path. -/
theorem path_cases {path : Path} (h : isKeyFileName (path.getLast?.getD []) = true) :
    ∃ dir plain, IsPlainName plain ∧ plainForm path = dir ++ [plain] ∧
      (path = dir ++ [plain] ∨ path = dir ++ [plain ++ sealedSuffix]) := by
  rcases hlast : path.getLast? with _ | name
  · rw [hlast] at h
    exact absurd h (by decide)
  · obtain ⟨dir, rfl⟩ := List.getLast?_eq_some_iff.mp hlast
    rw [hlast, Option.getD_some, isKeyFileName_iff] at h
    obtain ⟨plain, hplain, rfl | rfl⟩ := h
    · exact ⟨dir, name, hplain, by simp [hplain.dropSuffix], Or.inl rfl⟩
    · exact ⟨dir, plain, hplain, by simp [dropSuffix_append_sealedSuffix], Or.inr rfl⟩

/-- The key file at a UTF-8 path has one name in both forms. -/
theorem at_plain_and_sealed {dir : Path} {plain : Bytes} (hplain : IsPlainName plain)
    (h : pathIsStr (dir ++ [plain]) = true) :
    KeyFile.at (dir ++ [plain]) = ⟨dir ++ [plain]⟩ ∧
      KeyFile.at (dir ++ [plain ++ sealedSuffix]) = ⟨dir ++ [plain]⟩ := by
  constructor
  · rw [at_of_isStr h, plainForm_append, hplain.dropSuffix]
    rfl
  · rw [at_of_isStr ((pathIsStr_append_sealedSuffix dir plain).trans h), plainForm_append,
      dropSuffix_append_sealedSuffix]
    rfl

/-- The key file at a path that is not UTF-8 is another one than that at its sealed path. -/
theorem at_sealedPath_of_not_isStr {path : Path} (hne : path ≠ [])
    (h : ¬ pathIsStr path = true) :
    KeyFile.at (KeyFile.at path).sealedPath ≠ KeyFile.at path := by
  rw [at_of_not_isStr h]
  obtain ⟨dir, name, rfl⟩ := List.eq_nil_or_concat' path |>.resolve_left hne
  rw [sealedPath_append, at_of_not_isStr (by rwa [pathIsStr_append_sealedSuffix])]
  intro heq
  exact (KeyFile.mk (dir ++ [name])).sealedPath_ne_plain
    ((sealedPath_append dir name).trans (congrArg KeyFile.plain heq))

/-! ## What a seal does to a listing -/

/-- Key files are found at the same paths where the directories are the same ones. -/
theorem KeyFileIn.transport {d d' : VaultDisk} {recursive : Bool} {dir path path' : Path}
    (hdirs : ∀ q, d.isDir q = true → d'.isDir q = true) (h : KeyFileIn d recursive dir path)
    (hnode : d'.node path' ≠ none) (hfile : d'.isDir path' = false) (hne : path' ≠ [])
    (hsame : path'.dropLast = path.dropLast)
    (hname : AccountVault.isKeyFileName (path'.getLast?.getD []) = true) :
    KeyFileIn d' recursive dir path' := by
  induction h with
  | entry hmem _ _ =>
    have hdir := (mem_childrenOf_iff.mp hmem).2.2
    exact .entry (mem_childrenOf_iff.mpr ⟨hnode, hne, hsame.trans hdir⟩) hfile hname
  | beneath hrec hmem hsub _ ih =>
    obtain ⟨hthere, hsubne, hdir⟩ := mem_childrenOf_iff.mp hmem
    have hsub' := hdirs _ hsub
    have hthere' : d'.node _ ≠ none := fun hnone => by
      rw [Disk.isDir, hnone] at hsub'
      exact absurd hsub' (by simp)
    exact .beneath hrec (mem_childrenOf_iff.mpr ⟨hthere', hsubne, hdir⟩) hsub' (ih hsame)

theorem KeyFileIn.isDir_eq_false {d : VaultDisk} {recursive : Bool} {dir path : Path}
    (h : KeyFileIn d recursive dir path) : d.isDir path = false := by
  induction h with
  | entry _ hfile _ => exact hfile
  | beneath _ _ _ _ ih => exact ih

/-- The disk after the plaintext `dir/plain` has been sealed. -/
structure SealedFrom (d d' : VaultDisk) (dir : Path) (plain : Bytes) : Prop where
  before : ∃ content, d.node (dir ++ [plain]) = some (.file content)
  free : d.node (dir ++ [plain ++ sealedSuffix]) = none
  gone : d'.node (dir ++ [plain]) = none
  after : ∃ envelope, d'.node (dir ++ [plain ++ sealedSuffix]) = some (.file envelope)
  rest : ∀ q, q ≠ dir ++ [plain] → q ≠ dir ++ [plain ++ sealedSuffix] → d'.node q = d.node q

namespace SealedFrom

variable {d d' : VaultDisk} {dir₀ : Path} {plain : Bytes}

/-- The directories are those there were. -/
theorem isDir (h : SealedFrom d d' dir₀ plain) (q : Path) : d'.isDir q = d.isDir q := by
  obtain ⟨content, hbefore⟩ := h.before
  obtain ⟨envelope, hafter⟩ := h.after
  unfold Disk.isDir
  by_cases hplain : q = dir₀ ++ [plain]
  · rw [hplain, hbefore, h.gone]
  · by_cases hsealed : q = dir₀ ++ [plain ++ sealedSuffix]
    · rw [hsealed, hafter, h.free]
    · rw [h.rest q hplain hsealed]

/-- A scan lists the same key files as before. -/
theorem listing (h : SealedFrom d d' dir₀ plain) {recursive : Bool} {dir : Path}
    (hplain : IsPlainName plain) (hstr : pathIsStr (dir₀ ++ [plain]) = true) (file : KeyFile) :
    (∃ path, KeyFileIn d' recursive dir path ∧ file = KeyFile.at path) ↔
      ∃ path, KeyFileIn d recursive dir path ∧ file = KeyFile.at path := by
  obtain ⟨content, hbefore⟩ := h.before
  obtain ⟨envelope, hafter⟩ := h.after
  obtain ⟨hat, hat'⟩ := at_plain_and_sealed hplain hstr
  have hname : isKeyFileName (((dir₀ ++ [plain]).getLast?).getD []) = true := by
    simpa using isKeyFileName_iff.mpr ⟨plain, hplain, Or.inl rfl⟩
  have hname' : isKeyFileName (((dir₀ ++ [plain ++ sealedSuffix]).getLast?).getD []) = true := by
    simpa using isKeyFileName_iff.mpr ⟨plain, hplain, Or.inr rfl⟩
  constructor
  · rintro ⟨path, hin, rfl⟩
    by_cases hsealed : path = dir₀ ++ [plain ++ sealedSuffix]
    · -- the new sealed form stands for the plaintext that was there
      refine ⟨dir₀ ++ [plain], ?_, by rw [hsealed, hat, hat']⟩
      subst hsealed
      exact hin.transport (fun q hq => (h.isDir q).symm.trans hq) (by simp [hbefore])
        (by simp [Disk.isDir, hbefore]) (by simp) (by simp) hname
    · refine ⟨path, ?_, rfl⟩
      have hne : path ≠ dir₀ ++ [plain] := fun heq => hin.node_ne_none (heq ▸ h.gone)
      exact hin.transport (fun q hq => (h.isDir q).symm.trans hq)
        (h.rest path hne hsealed ▸ hin.node_ne_none)
        ((h.isDir path).symm.trans hin.isDir_eq_false)
        (fun hnil => absurd hin.isKeyFileName (by rw [hnil]; decide)) rfl hin.isKeyFileName
  · rintro ⟨path, hin, rfl⟩
    by_cases hwas : path = dir₀ ++ [plain]
    · refine ⟨dir₀ ++ [plain ++ sealedSuffix], ?_, by rw [hwas, hat, hat']⟩
      subst hwas
      exact hin.transport (fun q hq => (h.isDir q).trans hq) (by simp [hafter])
        (by simp [Disk.isDir, hafter]) (by simp) (by simp) hname'
    · refine ⟨path, ?_, rfl⟩
      have hne : path ≠ dir₀ ++ [plain ++ sealedSuffix] :=
        fun heq => hin.node_ne_none (heq ▸ h.free)
      exact hin.transport (fun q hq => (h.isDir q).trans hq)
        (h.rest path hwas hne ▸ hin.node_ne_none)
        ((h.isDir path).trans hin.isDir_eq_false)
        (fun hnil => absurd hin.isKeyFileName (by rw [hnil]; decide)) rfl hin.isKeyFileName

end SealedFrom

/-- A seal of an unsealed key file that returns has replaced its plaintext. -/
theorem seal_sealedFrom {p : EnvelopePrims} {fastKdf : Bool} {draw : Draw} {f : SealFaults}
    {v : Vault} {dir : Path} {plain : Bytes} {d d' : VaultDisk} {b : Bool}
    (hexists : (KeyFile.mk (dir ++ [plain])).exists d = true)
    (hunsealed : (KeyFile.mk (dir ++ [plain])).isSealed d = false)
    (h : Vault.seal p fastKdf draw f v ⟨dir ++ [plain]⟩ d = (.ok b, d')) :
    SealedFrom d d' dir plain := by
  obtain ⟨_ | password⟩ := v
  · -- without a password nothing is sealed
    have hfail : Vault.seal p fastKdf draw f ⟨none⟩ ⟨dir ++ [plain]⟩ d = (.err .noPassword, d) := rfl
    exact absurd (congrArg Prod.fst (hfail.symm.trans h)) (by simp)
  have hends := (seal_triple p fastKdf draw f password ⟨dir ++ [plain]⟩ d).of_ok rfl h
  rw [sealedPath_append] at hends
  have hne : dir ++ [plain ++ sealedSuffix] ≠ dir ++ [plain] := by
    rw [← sealedPath_append]
    exact KeyFile.sealedPath_ne_plain _
  obtain ⟨-, -, hnone⟩ | ⟨-, content, envelope, hcontent, hfree, -, rfl⟩ := hends
  · -- then only the sealed form would be there
    have hplain : d.pathExists (dir ++ [plain]) = false := pathExists_eq_false.mpr hnone
    simp only [KeyFile.exists, KeyFile.isSealed, hplain, Bool.false_or, Bool.not_false,
      Bool.true_and] at hexists hunsealed
    exact absurd (hexists.symm.trans hunsealed) (by simp)
  · refine ⟨⟨content, hcontent⟩, hfree, Disk.node_drop_self _ _, ⟨envelope, ?_⟩, ?_⟩
    · rw [Disk.node_drop, if_neg hne, Disk.node_settle, Disk.node_put_self]
    · intro q hq hq'
      rw [Disk.node_drop, if_neg hq, Disk.node_settle, Disk.node_put, if_neg hq']

/-! ## Stable names -/

/-- Discovery and naming are stable in `dir`: a scan lists each key file once, under its plaintext
path; a listed key file is the one at either of its paths; and a seal of a listed one keeps
the listing and leaves it sealed. -/
structure DiscoveryStable (dir : Path) (recursive : Bool) (d : VaultDisk) : Prop where
  found : ∃ files, (discover .ok dir recursive d).1 = .ok files
  listed : ∀ faults files, (discover faults dir recursive d).1 = .ok files → files.Nodup ∧
    ∀ file, file ∈ files ↔
      ∃ path, KeyFileIn d recursive dir path ∧ file.plain = plainForm path
  sameName : ∀ faults files, (discover faults dir recursive d).1 = .ok files → ∀ file ∈ files,
    KeyFile.at file.sealedPath = file ∧ KeyFile.at file.plain = file
  keptBySeal : ∀ faults files, (discover faults dir recursive d).1 = .ok files → ∀ file ∈ files,
    file.isSealed d = false → ∀ p fastKdf draw f v b d',
      Vault.seal p fastKdf draw f v file d = (.ok b, d') → file.isSealed d' = true ∧
        (∃ files', (discover .ok dir recursive d').1 = .ok files') ∧
        ∀ faults' files', (discover faults' dir recursive d').1 = .ok files' →
          ∀ other, other ∈ files' ↔ other ∈ files

/-- Where names are stable every key file's path is UTF-8. -/
theorem DiscoveryStable.isStr {dir : Path} {recursive : Bool} {d : VaultDisk}
    (h : DiscoveryStable dir recursive d) {path : Path} (hin : KeyFileIn d recursive dir path) :
    pathIsStr path = true := by
  by_contra hstr
  obtain ⟨files, hfiles⟩ := h.found
  have hmem : KeyFile.at path ∈ files := ((discover_finds hfiles).2 _).mpr ⟨path, hin, rfl⟩
  have hne : path ≠ [] := fun hnil => absurd hin.isKeyFileName (by rw [hnil]; decide)
  exact at_sealedPath_of_not_isStr hne hstr (h.sameName _ _ hfiles _ hmem).1

/-- The key file that is listed for a UTF-8 path, and its two paths. -/
theorem KeyFileIn.listed {d : VaultDisk} {recursive : Bool} {dir path : Path}
    (h : KeyFileIn d recursive dir path) (hstr : pathIsStr path = true) :
    ∃ dir₀ plain, IsPlainName plain ∧ pathIsStr (dir₀ ++ [plain]) = true ∧
      KeyFile.at path = ⟨dir₀ ++ [plain]⟩ := by
  obtain ⟨dir₀, plain, hplain, hform, hpath⟩ := path_cases h.isKeyFileName
  refine ⟨dir₀, plain, hplain, ?_, by rw [at_of_isStr hstr, hform]⟩
  rcases hpath with rfl | rfl
  · exact hstr
  · rwa [pathIsStr_append_sealedSuffix] at hstr

/-- Discovery and naming are stable in a directory exactly when the path of every key file a scan
of it meets is UTF-8. -/
theorem discoveryStable_iff {dir : Path} {recursive : Bool} {d : VaultDisk}
    (hdir : isDirPath d dir = true) :
    DiscoveryStable dir recursive d ↔
      ∀ path, KeyFileIn d recursive dir path → pathIsStr path = true := by
  refine ⟨fun h path hin => h.isStr hin, fun hall => ?_⟩
  refine ⟨discover_isOk recursive hdir, ?_, ?_, ?_⟩
  · intro faults files hfiles
    obtain ⟨hnodup, hmem⟩ := discover_finds hfiles
    refine ⟨hnodup, fun file => (hmem file).trans (exists_congr fun path => ?_)⟩
    refine and_congr_right fun hin => ?_
    rw [at_of_isStr (hall path hin)]
    obtain ⟨plain⟩ := file
    exact KeyFile.mk.injEq _ _ ▸ Iff.rfl
  · intro faults files hfiles file hfile
    obtain ⟨path, hin, rfl⟩ := ((discover_finds hfiles).2 file).mp hfile
    obtain ⟨dir₀, plain, hplain, hstr, hat⟩ := hin.listed (hall path hin)
    rw [hat, sealedPath_append]
    exact (at_plain_and_sealed hplain hstr).symm
  · intro faults files hfiles file hfile hunsealed p fastKdf draw f v b d' hseal
    have hexists := exists_of_discover hfiles hfile
    obtain ⟨path, hin, rfl⟩ := ((discover_finds hfiles).2 file).mp hfile
    obtain ⟨dir₀, plain, hplain, hstr, hat⟩ := hin.listed (hall path hin)
    rw [hat] at hunsealed hexists hseal ⊢
    have hsealed := seal_sealedFrom hexists hunsealed hseal
    obtain ⟨envelope, hafter⟩ := hsealed.after
    refine ⟨?_, discover_isOk recursive ?_, fun faults' files' hfiles' other => ?_⟩
    · rw [KeyFile.isSealed, sealedPath_append, pathExists_eq_false.mpr hsealed.gone,
        pathExists_eq_true.mpr (by simp [hafter])]
      rfl
    · rw [isDirPath, hsealed.isDir dir]
      exact hdir
    · rw [(discover_finds hfiles').2 other, (discover_finds hfiles).2 other]
      exact hsealed.listing hplain hstr other

/-- A directory with a plaintext, a key file in both forms, and a sealed one further down. -/
theorem discoveryStable_keys :
    DiscoveryStable [] true (Disk.mount
      [([[0x61, 0x2E, 0x6B, 0x65, 0x79]], .file [7]),
        ([[0x61, 0x2E, 0x6B, 0x65, 0x79, 0x2E, 0x65, 0x6E, 0x63]], .file [8]), ([[0x64]], .dir),
        ([[0x64], [0xC3, 0xA9, 0x2E, 0x6A, 0x73, 0x6F, 0x6E, 0x2E, 0x65, 0x6E, 0x63]],
          .file [9])]) := by
  refine (discoveryStable_iff (by decide)).mpr fun path hin => ?_
  have hmem := (Disk.mem_nodes_iff _ path).mpr hin.node_ne_none
  clear hin
  revert path
  decide

/-- In a directory with the file `\xFF.key` names are not stable. -/
theorem not_discoveryStable_key :
    ¬ DiscoveryStable [] false
      (Disk.mount [([[0xFF, 0x2E, 0x6B, 0x65, 0x79]], .file [7])]) := by
  intro h
  have hin : KeyFileIn (Disk.mount [([[0xFF, 0x2E, 0x6B, 0x65, 0x79]], .file [7])]) false []
      [[0xFF, 0x2E, 0x6B, 0x65, 0x79]] := .entry (by decide) (by decide) (by decide)
  exact absurd (h.isStr hin) (by decide)

end BlockchainOps.AccountVault
