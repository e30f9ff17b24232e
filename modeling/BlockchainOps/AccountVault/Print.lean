import BlockchainOps.AccountVault.Backup
import BlockchainOps.AccountVault.Names

/-!
# The `print` command

`print` opens the key files of a directory with one vault and renders a backup page for each. The
page of a sealed file is encrypted under the vault's password as it is after the file was
opened; that of a plain one is printed plain.
-/

namespace BlockchainOps.AccountVault

open Effect Proc Storage

inductive PrintError
  | vault (e : VaultError)
  | noKeyFiles (dir : Path)
  | page (e : PageError)
  | pdf (e : PdfError)
  | write (path : Path) (cause : IoError)
deriving DecidableEq, Repr

/-- The `Display` form; `debug` is the `{:?}` form of a path. -/
def PrintError.display (debug : Path → String) : PrintError → String
  | vault e => e.display debug
  | noKeyFiles dir => s!"no key files (*.json, *.key) in {debug dir}"
  | page e => e.display
  | pdf e => e.display
  | write path _ => s!"failed to write {debug path}"

structure PrintArgs where
  dir : Path
  out : Path
  recursive : Bool
deriving DecidableEq, Repr

/-- What a `print` meets. -/
structure PrintEnv where
  scan : ScanFaults
  read : KeyFile → Fault
  fastKdf : Bool
  draw : KeyFile → Draw
  wordList : WordList
  sha512_256 : Bytes → Bytes
  drawPages : List BackupPage → Except String Bytes
  openOut : Fault
  writeOut : WriteFault UInt8

/-- `std::fs::write`: what the file held before is lost. -/
def overwrite (openFault : Fault) (f : WriteFault UInt8) (path : Path) (content : Bytes) :
    Proc VaultDisk IoError Unit := do
  ioStep openFault do
    let d ← get
    if isDirPath d path then raise .isADirectory
    else modify fun d => d.put path []
  writeAll f path content

variable {κ : Type} (p : EnvelopePrims) (env : PrintEnv) (prompt : Proc κ VaultError String)

/-- The page of one key file. -/
def printPage (root : Path) (file : KeyFile) : Proc (Session κ) PrintError BackupPage := do
  let name := file.nameUnder root
  let opened ← mapErr .vault (Vault.open p prompt (env.read file) file)
  let s ← get
  let password := if opened.wasSealed then s.vault.password else none
  ofExcept ((backupPage p env.wordList env.sha512_256 env.fastKdf (env.draw file) name opened.bytes
    password).mapError .page)

/-- `blockchain-account-vault print`; the pages that were written. -/
def printCommand (args : PrintArgs) : Proc (Session κ) PrintError (List BackupPage) := do
  let files ← Session.onDisk (mapErr .vault (discover env.scan args.dir args.recursive))
  if files = [] then raise (.noKeyFiles args.dir)
  else do
    modify fun s => { s with vault := .new }
    let pages ← forEach (printPage p env prompt args.dir) files
    let pdf ← ofExcept ((renderBackupPdf env.drawPages pages).mapError .pdf)
    Session.onDisk (mapErr (.write args.out) (overwrite env.openOut env.writeOut args.out pdf))
    pure pages

end BlockchainOps.AccountVault
