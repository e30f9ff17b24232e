import BlockchainOps.Algo.ScanCache
import BlockchainOps.Lib.Keyed
import BlockchainOps.Lib.Paging

/-!
# The cached account scan

`fetchOptedInAccountsCachedWith` is the engine behind the cached scan of the accounts opted
into an application. A full scan pages through all accounts and rebuilds the set; an
incremental refresh discovers the addresses changed since the watermark, page by page, and then
re-reads each of them. The three network operations are arbitrary procedures over one state `σ`.

A full scan takes the least `current-round` of its pages as the watermark, an incremental
refresh the greatest.
-/

namespace BlockchainOps.Algo

open Effect Proc Paging Keyed

variable {σ T : Type}

/-- Decide the scan kind: `some true` is a full scan, `some false` an incremental refresh, and
`none` skips the network. -/
def accountScanKind (mode : QueryMode) (lifetime : Option ℕ) (now : ℕ) :
    Proc (AccountScanCache T × σ) Error (Option Bool) := do
  let (cache, _) ← get
  match mode with
  | .cacheOnly => pure none
  | .forceFull =>
    modify fun s => ({ s.1 with entries := [], lastRound := 0 }, s.2)
    pure (some true)
  | .refresh =>
    if cache.lastUpdated = 0 || cache.lastRound = 0 then
      pure (some true)
    else if scanCacheIsFresh cache.lastUpdated now lifetime then
      pure none
    else
      pure (some false)

/-- Lower the watermark to the page's `current-round`; the first page sets it. -/
def lowerWatermark (watermark : Option ℕ) (page : AccountScanPage) : Option ℕ :=
  some (match watermark with
    | some w => min w page.currentRound
    | none => page.currentRound)

/-- Take one page of a full scan in: push the accepted accounts, lower the watermark. -/
def absorbAccounts (ingest : ScannedAccount → Option T)
    (s : AccountScanCache T × Option ℕ) (page : AccountScanPage) :
    AccountScanCache T × Option ℕ :=
  let accepted := page.accounts.filterMap fun acct =>
    (ingest acct).map fun entry => (acct.address, entry)
  ({ s.1 with entries := s.1.entries ++ accepted }, lowerWatermark s.2 page)

/-- The distinct changed addresses in first-seen order. -/
def noteChanged (changed : List String) (address : String) : List String :=
  if address ∈ changed then changed else changed ++ [address]

/-- Take one page of change discovery in: raise the watermark, note the new addresses. -/
def absorbChanged (s : AccountScanCache T × ℕ × List String) (page : ChangedAddressesPage) :
    AccountScanCache T × ℕ × List String :=
  (s.1, max s.2.1 page.currentRound, page.addresses.foldl noteChanged s.2.2)

def upsertAccountEntry (entries : List (String × T)) (address : String) (entry : T) :
    List (String × T) :=
  upsert address entry entries

def removeAccountEntry (entries : List (String × T)) (address : String) : List (String × T) :=
  remove address entries

/-- Take the answer for one changed account in. -/
def absorbReread (ingest : ScannedAccount → Option T) (cache : AccountScanCache T)
    (answer : String × Option ScannedAccount) : AccountScanCache T :=
  match answer.2 with
  | some acct =>
    match ingest acct with
    | some entry => { cache with entries := upsertAccountEntry cache.entries answer.1 entry }
    | none => { cache with entries := removeAccountEntry cache.entries answer.1 }
  | none => { cache with entries := removeAccountEntry cache.entries answer.1 }

/-- The body of the engine, run while the cache mutex is held. -/
def accountScanBody (fuel : ℕ) (mode : QueryMode) (lifetime : Option ℕ) (now : ℕ)
    (ingest : ScannedAccount → Option T)
    (fetchFullPage : Option String → Proc σ Error AccountScanPage)
    (fetchChanged : ℕ → Option String → Proc σ Error ChangedAddressesPage)
    (lookupAccount : String → Proc σ Error (Option ScannedAccount)) :
    Proc (AccountScanCache T × σ) Error Unit := do
  match ← accountScanKind mode lifetime now with
  | none => pure ()
  | some true =>
    modify fun s => ({ s.1 with entries := [] }, s.2)
    let watermark ← pageLoop fetchFullPage (·.nextToken) (absorbAccounts ingest) fuel none
    modify fun s =>
      ({ s.1 with lastRound := watermark.getD s.1.lastRound, lastUpdated := now }, s.2)
  | some false =>
    let (cache, _) ← get
    let minRound ← ofOutcome (nextRound cache.lastRound)
    let (watermark, changed) ←
      pageLoop (fetchChanged minRound) (·.nextToken) absorbChanged fuel (cache.lastRound, [])
    visitAll lookupAccount (absorbReread ingest) changed
    modify fun s => ({ s.1 with lastRound := watermark, lastUpdated := now }, s.2)

def fetchOptedInAccountsCachedWith (fuel : ℕ) (mode : QueryMode) (lifetime : Option ℕ)
    (now : ℕ) (ingest : ScannedAccount → Option T)
    (fetchFullPage : Option String → Proc σ Error AccountScanPage)
    (fetchChanged : ℕ → Option String → Proc σ Error ChangedAddressesPage)
    (lookupAccount : String → Proc σ Error (Option ScannedAccount)) :
    Proc (Mutex (AccountScanCache T) × σ) Error Unit :=
  withLock (.text "account scan cache mutex poisoned")
    (accountScanBody fuel mode lifetime now ingest fetchFullPage fetchChanged lookupAccount)

end BlockchainOps.Algo
