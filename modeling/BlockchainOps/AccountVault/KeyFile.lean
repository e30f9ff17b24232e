import Mathlib.Data.List.Sort
import BlockchainOps.AccountVault.Envelope
import BlockchainOps.Lib.Disk

/-!
# Key files in a directory tree

A path is the list of its components, each an OS byte string, relative to the working
directory (`[]`). A key file is a `*.json` or `*.key` file; its sealed form is the same name with
`.enc` appended. It is named by its plaintext path throughout.
-/

namespace BlockchainOps.AccountVault

open Effect Proc Storage

/-- A path by its components. -/
abbrev Path := List Bytes

/-- The disk that holds the key files. -/
abbrev VaultDisk := Disk Path UInt8

/-! ## Errors -/

/-- What was being done when the file system failed. -/
inductive IoAction
  | read
  | reread
  | create
  | write
  | flush
  | remove
  | readDirectory
deriving DecidableEq, Repr

def IoAction.text : IoAction → String
  | read => "read"
  | reread => "re-read"
  | create => "create"
  | write => "write"
  | flush => "flush"
  | remove => "remove"
  | readDirectory => "read directory"

/-- The errors of the vault and of the command line tool. -/
inductive VaultError
  | io (action : IoAction) (path : Path) (cause : IoError)
  | entry (cause : IoError)
  | envelope (e : EnvelopeError)
  | doesNotOpen (path : Path)
  | noKeyFile (plain : Path)
  | noKeyFileInEitherForm (plain sealedPath : Path)
  | bothExist (plain sealedPath : Path)
  | noRoundTrip (plain : Path)
  | newNoRoundTrip (plain : Path)
  | notReadBack (sealedPath plain : Path)
  | newNotReadBack (sealedPath : Path)
  | existsAlready (plain : Path)
  | noPassword
  | prompt (message : String)
  | notAccountName (plain : Path)
  | accountExists (plain : Path)
  | notDirectory (dir : Path)
  | account (message : String)
deriving DecidableEq, Repr

/-- The `Display` form; `debug` is the `{:?}` form of a path. -/
def VaultError.display (debug : Path → String) : VaultError → String
  | io action path _ => s!"failed to {action.text} {debug path}"
  | entry cause => cause.display
  | envelope e => e.display
  | doesNotOpen path => s!"the password does not open {debug path}"
  | noKeyFile plain => s!"no key file at {debug plain}"
  | noKeyFileInEitherForm plain sealedPath =>
    s!"no key file at {debug plain} (nor {debug sealedPath})"
  | bothExist plain sealedPath =>
    s!"both {debug plain} and {debug sealedPath} exist; remove the one that is out of date"
  | noRoundTrip plain => s!"sealing {debug plain} did not round-trip; it is left as it was"
  | newNoRoundTrip plain => s!"sealing {debug plain} did not round-trip"
  | notReadBack sealedPath plain =>
    s!"{debug sealedPath} did not read back as written; {debug plain} is left as it was"
  | newNotReadBack sealedPath => s!"{debug sealedPath} did not read back as written"
  | existsAlready plain =>
    s!"{debug plain} exists already (in plain or sealed form); it is left as it is"
  | noPassword => "the vault has no password yet"
  | prompt message => message
  | notAccountName plain => s!"an account key file is named <NAME>.json, not {debug plain}"
  | accountExists plain => s!"{debug plain} exists already (in plain or sealed form)"
  | notDirectory dir => s!"{debug dir} is not a directory"
  | account message => message

/-! ## Names -/

/-- A byte of a UTF-8 sequence: how many continuation bytes are still to come, and the bounds
of the next one. -/
structure Utf8State where
  pending : ℕ
  low : UInt8
  high : UInt8
deriving DecidableEq, Repr

def Utf8State.start : Utf8State := ⟨0, 0x80, 0xBF⟩

/-- Read one byte of a UTF-8 sequence. -/
def Utf8State.step (s : Utf8State) (b : UInt8) : Option Utf8State :=
  match s.pending with
  | n + 1 => if s.low ≤ b ∧ b ≤ s.high then some ⟨n, 0x80, 0xBF⟩ else none
  | 0 =>
    if b < 0x80 then some start
    else if 0xC2 ≤ b ∧ b ≤ 0xDF then some ⟨1, 0x80, 0xBF⟩
    else if b = 0xE0 then some ⟨2, 0xA0, 0xBF⟩
    else if b = 0xED then some ⟨2, 0x80, 0x9F⟩
    else if 0xE1 ≤ b ∧ b ≤ 0xEF then some ⟨2, 0x80, 0xBF⟩
    else if b = 0xF0 then some ⟨3, 0x90, 0xBF⟩
    else if 0xF1 ≤ b ∧ b ≤ 0xF3 then some ⟨3, 0x80, 0xBF⟩
    else if b = 0xF4 then some ⟨3, 0x80, 0x8F⟩
    else none

/-- Whether `bytes` is UTF-8. -/
def validUtf8 (bytes : Bytes) : Bool :=
  match bytes.foldlM Utf8State.step Utf8State.start with
  | some s => s.pending = 0
  | none => false

/-- `Path::to_str` succeeds: every component is UTF-8. -/
def pathIsStr (path : Path) : Bool := path.all validUtf8

/-- `.enc`, appended to a key file's name to give its sealed form. -/
def sealedSuffix : Bytes := [0x2E, 0x65, 0x6E, 0x63]

/-- `json` and `key`, the extensions that mark a file as a key file. -/
def keyFileExtensions : List Bytes := [[0x6A, 0x73, 0x6F, 0x6E], [0x6B, 0x65, 0x79]]

/-- `Path::extension` of a file name: what follows its last dot, when something precedes it. -/
def extension (name : Bytes) : Option Bytes :=
  let after := name.reverse.takeWhile (· ≠ 0x2E)
  -- without a dot, and for a name whose only dot comes first, there is none
  if after.length + 1 < name.length then some after.reverse else none

/-- Whether a file name is a key file's, in either form. Replacing what is not UTF-8 leaves every
ASCII byte in place, so the name's bytes decide. -/
def isKeyFileName (name : Bytes) : Bool :=
  match extension ((name.dropSuffix? sealedSuffix).getD name) with
  | some e => decide (e ∈ keyFileExtensions)
  | none => false

/-! ## Key files -/

/-- One key file, named by its plaintext path. -/
structure KeyFile where
  plain : Path
deriving DecidableEq, Repr

namespace KeyFile

/-- The key file at a path given in either form. A path that is not UTF-8 is taken as it is. -/
def «at» (path : Path) : KeyFile :=
  match path.getLast? with
  | some name =>
    if pathIsStr path then
      match name.dropSuffix? sealedSuffix with
      | some stripped => ⟨path.dropLast ++ [stripped]⟩
      | none => ⟨path⟩
    else ⟨path⟩
  | none => ⟨path⟩

/-- Where the sealed form is, or would be. -/
def sealedPath (file : KeyFile) : Path :=
  match file.plain.getLast? with
  | some name => file.plain.dropLast ++ [name ++ sealedSuffix]
  | none => [sealedSuffix]

/-- Whether the key file is on disk in either form. -/
def «exists» (file : KeyFile) (d : VaultDisk) : Bool :=
  d.pathExists file.plain || d.pathExists file.sealedPath

/-- Whether only the sealed form is on disk. -/
def isSealed (file : KeyFile) (d : VaultDisk) : Bool :=
  !d.pathExists file.plain && d.pathExists file.sealedPath

/-- The two forms of a key file are at different paths. -/
theorem sealedPath_ne_plain (file : KeyFile) : file.sealedPath ≠ file.plain := by
  obtain ⟨plain⟩ := file
  unfold sealedPath
  rcases h : plain.getLast? with _ | name
  · rw [List.getLast?_eq_none_iff] at h
    simp [h]
  · obtain ⟨dir, rfl⟩ := List.getLast?_eq_some_iff.mp h
    have hname : name ++ sealedSuffix ≠ name := by
      intro heq
      have hlen := congrArg List.length heq
      simp [sealedSuffix] at hlen
    simpa using hname

end KeyFile

/-! ## Finding key files -/

/-- How the steps of a directory scan go: reading a directory, and reading one of its entries. -/
structure ScanFaults where
  readDir : Path → Fault
  entry : Path → Fault

/-- A scan none of whose steps fails. -/
def ScanFaults.ok : ScanFaults := ⟨fun _ => .none, fun _ => .none⟩

/-- The paths directly in `dir`. -/
def childrenOf (d : VaultDisk) (dir : Path) : List Path :=
  (d.nodes.map Prod.fst).filter fun path => path ≠ [] && path.dropLast = dir

/-- The working directory is a directory. -/
def isDirPath (d : VaultDisk) (path : Path) : Bool := path = [] || d.isDir path

/-- `std::fs::read_dir`. -/
def readDir (f : Fault) (dir : Path) : Proc VaultDisk IoError (List Path) :=
  ioStep f do
    let d ← get
    if isDirPath d dir then pure (childrenOf d dir)
    else raise (if d.pathExists dir then .notADirectory else .notFound)

/-- One entry of a directory that is being scanned: what it contributes. -/
def collectEntry (faults : ScanFaults) (below : Path → Proc VaultDisk VaultError (List KeyFile))
    (recursive : Bool) (path : Path) : Proc VaultDisk VaultError (List KeyFile) := do
  mapErr .entry (ioStep (faults.entry path) (pure ()))
  let d ← get
  if d.isDir path then
    if recursive then below path else pure []
  else if isKeyFileName (path.getLast?.getD []) then pure [KeyFile.at path]
  else pure []

/-- The key files in `dir`, and in the directories beneath it when `recursive`, as they are met. -/
def collect (faults : ScanFaults) (recursive : Bool) :
    ℕ → Path → Proc VaultDisk VaultError (List KeyFile)
  | 0, _ => halt .fuel
  | fuel + 1, dir => do
    let entries ← mapErr (.io .readDirectory dir) (readDir (faults.readDir dir) dir)
    let found ← forEach (collectEntry faults (collect faults recursive fuel) recursive) entries
    pure found.flatten

/-- Add a key file to an ordered set of them. -/
def insertKeyFile (found : List KeyFile) (file : KeyFile) : List KeyFile :=
  if file ∈ found then found
  else found.orderedInsert (fun a b => a.plain ≤ b.plain) file

/-- Enough rounds for a scan to reach the deepest path of the disk. -/
def scanFuel (d : VaultDisk) : ℕ := (d.nodes.map fun n => n.1.length).foldr max 0 + 1

/-- Find the key files in `dir`: ordered, and each once. -/
def discover (faults : ScanFaults) (dir : Path) (recursive : Bool) :
    Proc VaultDisk VaultError (List KeyFile) := do
  let d ← get
  let found ← collect faults recursive (scanFuel d) dir
  pure (found.foldl insertKeyFile [])

/-! ## What a scan does -/

theorem readDir_respects (f : Fault) (dir : Path) : Respects Eq (readDir f dir) := by
  refine ioStep_respects (Respects.get.bind fun d => ?_)
  by_cases h : isDirPath d dir = true
  · rw [if_pos h]
    exact Respects.pure _
  · rw [if_neg h]
    exact Respects.raise _

theorem collectEntry_respects (faults : ScanFaults)
    {below : Path → Proc VaultDisk VaultError (List KeyFile)}
    (hbelow : ∀ path, Respects Eq (below path)) (recursive : Bool) (path : Path) :
    Respects Eq (collectEntry faults below recursive path) := by
  refine (Respects.mapErr (ioStep_respects (Respects.pure ()))).bind fun _ =>
    Respects.get.bind fun d => ?_
  split_ifs
  · exact hbelow path
  · exact Respects.pure _
  · exact Respects.pure _
  · exact Respects.pure _

/-- A scan changes nothing on the disk. -/
theorem collect_respects (faults : ScanFaults) (recursive : Bool) :
    ∀ fuel dir, Respects Eq (collect faults recursive fuel dir)
  | 0, _ => Respects.halt _
  | fuel + 1, _ =>
    (Respects.mapErr (readDir_respects _ _)).bind fun _ =>
      (Respects.forEach (fun path => collectEntry_respects faults
        (collect_respects faults recursive fuel) recursive path) _).bind fun _ => Respects.pure _

theorem discover_respects (faults : ScanFaults) (dir : Path) (recursive : Bool) :
    Respects Eq (discover faults dir recursive) :=
  Respects.get.bind fun _ => (collect_respects faults recursive _ _).bind fun _ => Respects.pure _

end BlockchainOps.AccountVault
