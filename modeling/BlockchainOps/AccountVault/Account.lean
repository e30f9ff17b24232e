import Mathlib.Logic.Function.Basic
import BlockchainOps.AccountVault.Mnemonic
import BlockchainOps.Lib.Base32
import BlockchainOps.Lib.Effect
import BlockchainOps.Lib.Machine
import BlockchainOps.Lib.Wire

/-!
# New accounts, with a chosen prefix

An account is derived from a seed of 32 bytes: the passphrase is the mnemonic of the seed, the
address the base32 form of the public key and a checksum. An address with a wanted prefix is
found by brute force on several threads, which share a flag, a counter and the seed that was
found. The threads are a machine: each step is one access to what they share, or work that a
thread does on its own. A relaxed load of the flag may see it as it was before.
-/

namespace BlockchainOps.AccountVault

open Effect Wire

/-- A private seed. -/
abbrev Seed : Type := Field 32

/-- What accounts take from other packages: the word list, the digest, and the public key of an
Ed25519 seed. -/
structure AccountPrims where
  wordList : WordList
  sha512_256 : Bytes → Field 32
  verifyingKey : Seed → Field 32

/-- `BASE32_NOPAD`. -/
def base32Nopad : Base32 := Base32.standard

def maxPrefixLen : ℕ := 8

def checksumLen : ℕ := 4

/-- An account as a key file holds it. -/
structure Account where
  address : String
  passphrase : String
deriving DecidableEq, Repr

/-- The base32 form of the public key and the end of its digest. -/
def addressOf (p : AccountPrims) (publicKey : Field 32) : String :=
  let digest := (p.sha512_256 publicKey.1).1
  base32Nopad.encode (publicKey.1 ++ digest.drop (digest.length - checksumLen))

/-- The account derived from a private seed. -/
def Account.fromSeed (p : AccountPrims) (seed : Seed) : Account where
  address := addressOf p (p.verifyingKey seed)
  passphrase := bytesToMnemonic p.wordList (fun b => (p.sha512_256 b).1) seed.1

/-- A vanity account and how many keys were tried to find it. -/
structure VanityAccount where
  account : Account
  tries : ℕ
deriving DecidableEq, Repr

/-! ## Prefixes -/

/-- `str::to_ascii_uppercase`. -/
def toAsciiUppercase (s : String) : String := String.ofList (s.toList.map Char.toUpper)

/-- The characters of addresses. -/
def isAddressChar (c : Char) : Bool := ('A' ≤ c && c ≤ 'Z') || ('2' ≤ c && c ≤ '7')

/-- Upper-case a prefix, and check that an address can begin with it and that it is not too
long. -/
def normalisePrefix (input : String) : Except String String :=
  let pre := toAsciiUppercase input
  if pre = "" then .error "the prefix must not be empty"
  else if maxPrefixLen < (utf8 pre).length then
    .error s!"the prefix is at most {maxPrefixLen} characters"
  else
    match pre.toList.find? fun c => !isAddressChar c with
    | some bad =>
      .error s!"'{bad}' can't appear in an address: use A-Z and 2-7 (no 0, 1, 8 or 9)"
    | none => .ok pre

/-! ## The search -/

/-- What a search looks for: the prefix, and how many bytes of a key decide it. -/
structure VanitySearch where
  pre : String
  leadingBytes : ℕ

def VanitySearch.new (pre : String) : VanitySearch where
  pre := pre
  leadingBytes := ((utf8 pre).length * 5 + 7) / 8

/-- Whether the encoding of a key's leading bytes starts with the prefix. -/
def VanitySearch.isMatch (v : VanitySearch) (publicKey : Field 32) : Bool :=
  v.pre.toList.isPrefixOf (base32Nopad.encode (publicKey.1.take v.leadingBytes)).toList

/-- Where a thread stands in `run`, and the number of keys it has tried. -/
inductive SearchThread
  | looping (tries : ℕ)
  | drawing (tries : ℕ)
  | locking (tries : ℕ) (seed : Seed)
  | recording (tries : ℕ) (seed : Seed)
  | raising (tries : ℕ)
  | unlocking (tries : ℕ)
  | leaving (tries : ℕ)
  | ended
  | panicked
deriving DecidableEq, Repr

/-- What the threads share, the thread that holds the mutex, and the threads. -/
structure SearchState (n : ℕ) where
  done : Bool
  tries : ℕ
  found : Option Seed
  holder : Option (Fin n)
  threads : Fin n → SearchThread

/-- What a thread does next: it sees the flag, draws a seed or has no randomness to draw one
from, or makes its next access. -/
inductive SearchAction
  | load (seen : Bool)
  | draw (seed : Seed)
  | fail
  | next
deriving DecidableEq, Repr

namespace SearchState

variable {n : ℕ}

def init (n : ℕ) : SearchState n where
  done := false
  tries := 0
  found := none
  holder := none
  threads := fun _ => .looping 0

/-- Move the thread `i`. -/
def move (s : SearchState n) (i : Fin n) (t : SearchThread) : SearchState n :=
  { s with threads := Function.update s.threads i t }

@[simp] theorem move_done (s : SearchState n) (i : Fin n) (t : SearchThread) :
    (s.move i t).done = s.done := rfl
@[simp] theorem move_found (s : SearchState n) (i : Fin n) (t : SearchThread) :
    (s.move i t).found = s.found := rfl

theorem move_threads (s : SearchState n) (i j : Fin n) (t : SearchThread) :
    (s.move i t).threads j = if j = i then t else s.threads j := by
  show Function.update s.threads i t j = _
  rw [Function.update_apply]

end SearchState

/-- One step of the thread `i`. -/
def searchStep {n : ℕ} (p : AccountPrims) (v : VanitySearch) (s : SearchState n) (i : Fin n)
    (a : SearchAction) : Option (SearchState n) :=
  match s.threads i, a with
  | .looping tries, .load seen =>
    if seen then
      if s.done then some (s.move i (.leaving tries)) else none
    else some (s.move i (.drawing tries))
  | .drawing _, .fail => some (s.move i .panicked)
  | .drawing tries, .draw seed =>
    if v.isMatch (p.verifyingKey seed) then some (s.move i (.locking (tries + 1) seed))
    else some (s.move i (.looping (tries + 1)))
  | .locking tries seed, .next =>
    if s.holder = none then
      some ({ s with holder := some i }.move i (.recording tries seed))
    else none
  | .recording tries seed, .next =>
    -- only the first seed is kept
    some ({ s with found := s.found <|> some seed }.move i (.raising tries))
  | .raising tries, .next => some ({ s with done := true }.move i (.unlocking tries))
  | .unlocking tries, .next => some ({ s with holder := none }.move i (.looping tries))
  | .leaving tries, .next => some ({ s with tries := s.tries + tries }.move i .ended)
  | _, _ => none

def searchMachine (n : ℕ) (p : AccountPrims) (v : VanitySearch) :
    Machine (SearchState n) (Fin n × SearchAction) where
  step s a := searchStep p v s a.1 a.2

/-- What is made of the shared state when every thread has ended. -/
def SearchState.outcome {n : ℕ} (p : AccountPrims) (s : SearchState n) :
    Outcome String VanityAccount :=
  match s.found with
  | none => .err "the search stopped without a match"
  | some seed => .ok ⟨Account.fromSeed p seed, s.tries⟩

/-- What a call can return: a refusal, a panic of one of the threads, or what the threads found,
for any interleaving of them. -/
inductive FindVanityAccount (p : AccountPrims) (input : String) (threads : ℕ) :
    Outcome String VanityAccount → Prop
  | refused {e : String} (h : normalisePrefix input = .error e) :
      FindVanityAccount p input threads (.err e)
  | panicked {pre : String} {s : SearchState (max threads 1)} {i : Fin (max threads 1)}
      (h : normalisePrefix input = .ok pre)
      (hrun : (searchMachine _ p (.new pre)).Run (fun _ _ => True) (.init _) s)
      (hover : ∀ j, s.threads j = .ended ∨ s.threads j = .panicked)
      (hpanic : s.threads i = .panicked) : FindVanityAccount p input threads (.stop .panic)
  | finished {pre : String} {s : SearchState (max threads 1)}
      (h : normalisePrefix input = .ok pre)
      (hrun : (searchMachine _ p (.new pre)).Run (fun _ _ => True) (.init _) s)
      (hended : ∀ i, s.threads i = .ended) : FindVanityAccount p input threads (s.outcome p)

end BlockchainOps.AccountVault
