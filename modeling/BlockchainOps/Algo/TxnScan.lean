import BlockchainOps.Algo.ScanCache
import BlockchainOps.Lib.Paging

/-!
# The cached transaction scan

`fetchTransactionsCachedWith` is the engine behind the cached transaction scan: it decides
whether to fetch and from which round, pages through the indexer, and appends what `ingest`
accepts to the cache under the caller's mutex. The page fetcher is an arbitrary procedure over
a state `σ`, so it may answer differently on every call.

The cache is written while the pages arrive; the watermark and the stamp only after the
last page.
-/

namespace BlockchainOps.Algo

open Effect Proc Paging

variable {σ T : Type}

/-- Decide whether to fetch and from which round: `some none` is a full scan, `some (some r)`
an incremental scan from round `r`, and `none` skips the network. -/
def txnFetchFrom (mode : QueryMode) (lifetime : Option ℕ) (now : ℕ) :
    Proc (TxnScanCache T × σ) Error (Option (Option ℕ)) := do
  let (cache, _) ← get
  match mode with
  | .cacheOnly => pure none
  | .forceFull =>
    -- drop the accumulated entries and the watermark; the stamp stays
    modify fun s => ({ s.1 with entries := [], lastRound := 0 }, s.2)
    pure (some none)
  | .refresh =>
    if cache.lastUpdated = 0 then
      pure (some none)
    else if scanCacheIsFresh cache.lastUpdated now lifetime then
      pure none
    else
      let round ← ofOutcome (nextRound cache.lastRound)
      pure (some (some round))

/-- Take one page in: push the accepted transactions, advance the watermark. -/
def absorbTxns (ingest : ScannedTxn → Option T) (s : TxnScanCache T × ℕ) (page : TxnScanPage) :
    TxnScanCache T × ℕ :=
  ({ s.1 with entries := s.1.entries ++ page.txns.filterMap ingest },
    max s.2 page.currentRound)

/-- The body of the engine, run while the cache mutex is held. -/
def txnScanBody (fuel : ℕ) (mode : QueryMode) (lifetime : Option ℕ) (now : ℕ)
    (ingest : ScannedTxn → Option T)
    (fetchPage : Option ℕ → Option String → Proc σ Error TxnScanPage) :
    Proc (TxnScanCache T × σ) Error Unit := do
  match ← txnFetchFrom mode lifetime now with
  | none => pure ()
  | some minRound =>
    let (cache, _) ← get
    let watermark ←
      pageLoop (fetchPage minRound) (·.nextToken) (absorbTxns ingest) fuel cache.lastRound
    modify fun s => ({ s.1 with lastRound := watermark, lastUpdated := now }, s.2)

def fetchTransactionsCachedWith (fuel : ℕ) (mode : QueryMode) (lifetime : Option ℕ) (now : ℕ)
    (ingest : ScannedTxn → Option T)
    (fetchPage : Option ℕ → Option String → Proc σ Error TxnScanPage) :
    Proc (Mutex (TxnScanCache T) × σ) Error Unit :=
  withLock (.text "transaction scan cache mutex poisoned")
    (txnScanBody fuel mode lifetime now ingest fetchPage)

end BlockchainOps.Algo
