import Mathlib.Algebra.Group.Nat.Defs
import BlockchainOps.Lib.Effect
import BlockchainOps.Algo.Error

/-!
# Scan caches

The data of the two cached scanners: what a page carries, and the caller-owned caches a
refresh extends. Rounds and clock readings are `u64` values, kept as naturals; the one sum
the scanners form on them is `nextRound`, which panics past `u64::MAX`.
-/

namespace BlockchainOps.Algo

open Effect

/-- A confirmed transaction as the transaction scanner sees it. -/
structure ScannedTxn where
  confirmedRound : ℕ
  sender : String
  note : Option (List UInt8)
deriving DecidableEq, Repr

/-- An account opted into an application, with its decoded local state. -/
structure ScannedAccount where
  address : String
  localState : List (String × String)
deriving DecidableEq, Repr

/-- A page of a transaction scan. -/
structure TxnScanPage where
  txns : List ScannedTxn
  nextToken : Option String
  currentRound : ℕ
deriving DecidableEq, Repr

/-- A page of a full account scan. -/
structure AccountScanPage where
  accounts : List ScannedAccount
  nextToken : Option String
  currentRound : ℕ
deriving DecidableEq, Repr

/-- A page of the change-discovery scan. -/
structure ChangedAddressesPage where
  addresses : List String
  nextToken : Option String
  currentRound : ℕ
deriving DecidableEq, Repr

/-- The transaction scan cache. -/
structure TxnScanCache (T : Type) where
  lastRound : ℕ
  lastUpdated : ℕ
  entries : List T
deriving DecidableEq, Repr

/-- The account scan cache, keyed by address. -/
structure AccountScanCache (T : Type) where
  lastRound : ℕ
  lastUpdated : ℕ
  entries : List (String × T)
deriving DecidableEq, Repr

def TxnScanCache.new {T : Type} : TxnScanCache T := ⟨0, 0, []⟩

def AccountScanCache.new {T : Type} : AccountScanCache T := ⟨0, 0, []⟩

/-- How a call treats the cache. -/
inductive QueryMode
  | refresh
  | cacheOnly
  | forceFull
deriving DecidableEq, Repr

/-- Whether a cache stamped at `lastUpdated` is still fresh at `now`. -/
def scanCacheIsFresh (lastUpdated now : ℕ) (lifetime : Option ℕ) : Bool :=
  match lifetime with
  | some secs => decide (now - lastUpdated < secs)
  | none => false

/-- `last_round + 1` on `u64`. -/
def nextRound (lastRound : ℕ) : Outcome Error ℕ :=
  if lastRound + 1 < 2 ^ 64 then .ok (lastRound + 1) else .stop .panic

end BlockchainOps.Algo
