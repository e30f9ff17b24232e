import BlockchainOps.Lib.Timeline
import BlockchainOps.Algo.TxnScanTheorems

/-!
# Whole runs of the transaction scan

A run is any sequence of successful calls on one cache, from the empty cache on, against an
indexer that keeps its contract for every scan (`ServesScan`). After every call the entries
are what `ingest` accepts of the chain up to the watermark, each transaction once.

The chain is the finished history: the rounds a scan has not reached yet may be confirmed
while the scan runs.
-/

namespace BlockchainOps.Algo

open Effect Proc Paging

variable {σ T : Type}

/-! ## The indexer's contract -/

/-- The matching confirmed transactions of every round, in order; no transaction is confirmed
in round zero. -/
structure Chain extends Timeline ScannedTxn (·.confirmedRound) where
  genesis : events 0 = []

/-- The transactions of the pages, in order. -/
def pageTxns (pages : List TxnScanPage) : List ScannedTxn := pages.flatMap (·.txns)

/-- A completed scan with floor `minRound`: in round order, exactly the matching transactions
from the floor up to the greatest `current-round` of the pages, each once. -/
structure ServesScan (chain : Chain) (minRound : Option ℕ) (pages : List TxnScanPage) : Prop where
  ordered : (pageTxns pages).Pairwise fun a b => a.confirmedRound ≤ b.confirmedRound
  exact : ∀ r, ((pageTxns pages).filter fun txn => txn.confirmedRound = r)
    = if minRound.getD 0 ≤ r ∧ r ≤ topRound 0 pages then chain.events r else []

theorem ServesScan.txns_eq {chain : Chain} {minRound : Option ℕ} {pages : List TxnScanPage}
    (h : ServesScan chain minRound pages) :
    pageTxns pages = chain.window (minRound.getD 0) (topRound 0 pages) :=
  chain.eq_window h.ordered h.exact

theorem accepted_eq_filterMap (ingest : ScannedTxn → Option T) (pages : List TxnScanPage) :
    accepted ingest pages = (pageTxns pages).filterMap ingest := by
  rw [accepted, pageTxns, List.filterMap_flatMap]

theorem topRound_eq_max (r : ℕ) (pages : List TxnScanPage) :
    topRound r pages = max r (topRound 0 pages) := by
  induction pages generalizing r with
  | nil => simp [topRound]
  | cons page pages ih =>
    have hr := ih (max r page.currentRound)
    have h0 := ih (max 0 page.currentRound)
    unfold topRound at hr h0 ⊢
    rw [List.foldl_cons, List.foldl_cons, hr, h0]
    omega

/-! ## Runs -/

/-- The arguments of one call and the state of the server it meets. -/
structure TxnScanCall (σ : Type) where
  fuel : ℕ
  mode : QueryMode
  lifetime : Option ℕ
  now : ℕ
  fetchPage : Option ℕ → Option String → Proc σ Error TxnScanPage
  world : σ

namespace TxnScanCall

/-- The call on a cache. -/
def run (call : TxnScanCall σ) (ingest : ScannedTxn → Option T) (m : Mutex (TxnScanCache T)) :
    Outcome Error Unit × Mutex (TxnScanCache T) × σ :=
  fetchTransactionsCachedWith call.fuel call.mode call.lifetime call.now ingest call.fetchPage
    (m, call.world)

/-- The decision of the call. -/
def floor (call : TxnScanCall σ) (c : TxnScanCache T) : Outcome Error (Option (Option ℕ)) :=
  txnFloor call.mode call.lifetime call.now c

/-- The pages the indexer serves the call for a floor. -/
def pages (call : TxnScanCall σ) (minRound : Option ℕ) : List TxnScanPage :=
  (txnWalk call.fuel call.fetchPage minRound call.world).pages

end TxnScanCall

/-- `TxnScanRun chain ingest R m`: a sequence of successful calls at positive clock readings
takes the empty cache to `m`, the indexer keeping its contract; its last scan reached round
`R`. -/
inductive TxnScanRun (σ : Type) (chain : Chain) (ingest : ScannedTxn → Option T) :
    ℕ → Mutex (TxnScanCache T) → Prop
  | new : TxnScanRun σ chain ingest 0 (Mutex.new .new)
  | idle {R : ℕ} {m : Mutex (TxnScanCache T)} (h : TxnScanRun σ chain ingest R m)
      (call : TxnScanCall σ) (hnow : 0 < call.now) (hok : (call.run ingest m).1 = .ok ())
      (hfloor : call.floor m.value = .ok none) :
      TxnScanRun σ chain ingest R (call.run ingest m).2.1
  | scan {R : ℕ} {m : Mutex (TxnScanCache T)} (h : TxnScanRun σ chain ingest R m)
      (call : TxnScanCall σ) (hnow : 0 < call.now) (hok : (call.run ingest m).1 = .ok ())
      (minRound : Option ℕ) (hfloor : call.floor m.value = .ok (some minRound))
      (hserved : ServesScan chain minRound (call.pages minRound))
      (hgrows : R ≤ topRound 0 (call.pages minRound)) :
      TxnScanRun σ chain ingest (topRound 0 (call.pages minRound)) (call.run ingest m).2.1

variable {chain : Chain} {ingest : ScannedTxn → Option T}

/-- Every successful call continues a run, if the indexer keeps its contract for the floor the
call asks with. -/
theorem TxnScanRun.of_call {R : ℕ} {m : Mutex (TxnScanCache T)}
    (h : TxnScanRun σ chain ingest R m) (hp : m.poisoned = false) (call : TxnScanCall σ)
    (hnow : 0 < call.now) (hok : (call.run ingest m).1 = .ok ())
    (hserved : ∀ minRound, ServesScan chain minRound (call.pages minRound) ∧
      R ≤ topRound 0 (call.pages minRound)) :
    ∃ R', TxnScanRun σ chain ingest R' (call.run ingest m).2.1 := by
  rcases hfl : call.floor m.value with fl | e | w
  · rcases fl with _ | minRound
    · exact ⟨R, h.idle call hnow hok hfl⟩
    · exact ⟨_, h.scan call hnow hok minRound hfl (hserved minRound).1 (hserved minRound).2⟩
  · exact absurd hfl txnFloor_ne_err
  · -- the panic of `last_round + 1` is no success
    rw [TxnScanCall.run, fetchTransactionsCachedWith, withLock_fst hp,
      txnScanBody_of_stop (w := w) hfl] at hok
    exact absurd hok (by simp)

/-- What every call preserves: the watermark is the round of the last scan, the entries are the
chain up to it, and a cache that was never stamped stands at round zero. -/
structure TxnScanInv (chain : Chain) (ingest : ScannedTxn → Option T) (R : ℕ)
    (m : Mutex (TxnScanCache T)) : Prop where
  unpoisoned : m.poisoned = false
  watermark : m.value.lastRound = R
  entries : m.value.entries = (chain.window 1 R).filterMap ingest
  unstamped : m.value.lastUpdated = 0 → R = 0

theorem TxnScanInv.new : TxnScanInv chain ingest 0 (Mutex.new .new) where
  unpoisoned := rfl
  watermark := rfl
  entries := by rw [chain.window_of_lt Nat.one_pos]; rfl
  unstamped := fun _ => rfl

/-- The floor fits the entries the scan starts from: together with the rounds from the floor on
they make up the chain. -/
theorem TxnScanInv.window_of_floor {R R' : ℕ} {m : Mutex (TxnScanCache T)}
    (h : TxnScanInv chain ingest R m) {call : TxnScanCall σ} {minRound : Option ℕ}
    (hfloor : call.floor m.value = .ok (some minRound)) (hgrows : R ≤ R') :
    (txnStart call.mode m.value).entries ++ (chain.window (minRound.getD 0) R').filterMap ingest
      = (chain.window 1 R').filterMap ingest := by
  have hfull : chain.window 0 R' = chain.window 1 R' := chain.window_of_empty chain.genesis R'
  rcases txnFloor_eq_some hfloor with ⟨hmode, rfl⟩ | ⟨hmode, hnew, rfl⟩ | ⟨hmode, _, rfl⟩
  · -- forced: the entries were dropped
    rw [hmode]
    exact congrArg (List.filterMap ingest) hfull
  · -- bootstrap: nothing was scanned yet
    have hzero := h.unstamped hnew
    rw [hmode, txnStart_of_ne (by simp), h.entries, hzero, chain.window_of_lt Nat.one_pos]
    exact congrArg (List.filterMap ingest) hfull
  · -- incremental: the scan resumes right after the watermark
    rw [hmode, txnStart_of_ne (by simp), h.entries, h.watermark, Option.getD_some,
      ← List.filterMap_append, chain.window_append (by omega) hgrows]

/-- The watermark a scan starts from is at most that of the last scan. -/
theorem TxnScanInv.start_le {R : ℕ} {m : Mutex (TxnScanCache T)}
    (h : TxnScanInv chain ingest R m) (mode : QueryMode) :
    (txnStart mode m.value).lastRound ≤ R := by
  rcases mode with _ | _ | _
  · exact le_of_eq h.watermark
  · exact le_of_eq h.watermark
  · exact Nat.zero_le R

/-- A call that scans ends as its conversation with the indexer does. -/
theorem TxnScanCall.run_fst {m : Mutex (TxnScanCache T)} (hp : m.poisoned = false)
    (call : TxnScanCall σ) {minRound : Option ℕ}
    (hfloor : call.floor m.value = .ok (some minRound)) :
    (call.run ingest m).1 = (txnWalk call.fuel call.fetchPage minRound call.world).outcome := by
  rw [run, fetchTransactionsCachedWith, withLock_fst hp, txnScanBody_of_scan hfloor]

/-- The cache after a scan that completes. -/
theorem TxnScanCall.run_of_scan {m : Mutex (TxnScanCache T)} (hp : m.poisoned = false)
    (call : TxnScanCall σ) {minRound : Option ℕ}
    (hfloor : call.floor m.value = .ok (some minRound)) (hok : (call.run ingest m).1 = .ok ()) :
    (call.run ingest m).2.1 =
      ⟨{ lastRound := topRound (txnStart call.mode m.value).lastRound (call.pages minRound)
         lastUpdated := call.now
         entries := (txnStart call.mode m.value).entries
          ++ accepted ingest (call.pages minRound) }, false⟩ := by
  rw [call.run_fst hp hfloor] at hok
  rw [run, fetchTransactionsCachedWith, withLock]
  simp only [hp, Bool.false_eq_true, if_false, txnScanBody_of_scan hfloor, hok, if_true]
  rfl

/-- A scan that completes keeps the invariant, at the round it reached. -/
theorem TxnScanInv.scan {R : ℕ} {m : Mutex (TxnScanCache T)} (h : TxnScanInv chain ingest R m)
    (call : TxnScanCall σ) (hnow : 0 < call.now) (hok : (call.run ingest m).1 = .ok ())
    {minRound : Option ℕ} (hfloor : call.floor m.value = .ok (some minRound))
    (hserved : ServesScan chain minRound (call.pages minRound))
    (hgrows : R ≤ topRound 0 (call.pages minRound)) :
    TxnScanInv chain ingest (topRound 0 (call.pages minRound)) (call.run ingest m).2.1 := by
  rw [call.run_of_scan h.unpoisoned hfloor hok]
  refine ⟨rfl, ?_, ?_, ?_⟩
  · have hstart := h.start_le call.mode
    show topRound _ _ = _
    rw [topRound_eq_max]
    omega
  · show (txnStart call.mode m.value).entries ++ accepted ingest (call.pages minRound) = _
    rw [accepted_eq_filterMap, hserved.txns_eq]
    exact h.window_of_floor hfloor hgrows
  · intro hzero
    exact absurd hzero (Nat.pos_iff_ne_zero.mp hnow)

/-- A call that stays off the network leaves the cache as it is. -/
theorem TxnScanCall.run_of_floor_none {m : Mutex (TxnScanCache T)} (hp : m.poisoned = false)
    (call : TxnScanCall σ) (hfloor : call.floor m.value = .ok none) :
    (call.run ingest m).2.1 = m := by
  obtain ⟨c, p⟩ := m
  subst hp
  rw [TxnScanCall.run, fetchTransactionsCachedWith, withLock]
  simp [txnScanBody_of_none hfloor]

theorem TxnScanRun.inv {R : ℕ} {m : Mutex (TxnScanCache T)}
    (h : TxnScanRun σ chain ingest R m) : TxnScanInv chain ingest R m := by
  induction h with
  | new => exact .new
  | idle _ call _ _ hfloor ih =>
    rw [call.run_of_floor_none ih.unpoisoned hfloor]
    exact ih
  | scan _ call hnow hok minRound hfloor hserved hgrows ih =>
    exact ih.scan call hnow hok hfloor hserved hgrows

/-- After every call of a run the entries are what `ingest` accepts of the rounds
`1..last_round`, in chain order and each transaction once. -/
theorem TxnScanRun.entries_eq_window {R : ℕ} {m : Mutex (TxnScanCache T)}
    (h : TxnScanRun σ chain ingest R m) :
    m.value.entries = (chain.window 1 m.value.lastRound).filterMap ingest := by
  rw [h.inv.watermark]
  exact h.inv.entries

/-- Two rounds with a transaction each. -/
def twoRounds : Chain where
  events r := if r = 1 then [⟨1, "A", none⟩] else if r = 2 then [⟨2, "B", none⟩] else []
  stamped := by
    intro r txn htxn
    split_ifs at htxn with h1 h2
    · rw [List.mem_singleton.mp htxn, h1]
    · rw [List.mem_singleton.mp htxn, h2]
    · exact absurd htxn List.not_mem_nil
  genesis := rfl

/-- A bootstrap that reaches round 1, then an incremental scan that reaches round 2. -/
theorem TxnScanRun.entries_eq_window_two_scans :
    let first : TxnScanCall (List (Except Error TxnScanPage)) :=
      ⟨1, .refresh, some 60, 100, fun _ _ => scripted, [.ok ⟨[⟨1, "A", none⟩], none, 1⟩]⟩
    let second : TxnScanCall (List (Except Error TxnScanPage)) :=
      ⟨1, .refresh, some 60, 200, fun _ _ => scripted, [.ok ⟨[⟨2, "B", none⟩], none, 2⟩]⟩
    let m := (second.run some (first.run some (Mutex.new .new)).2.1).2.1
    m.value.entries = (twoRounds.window 1 m.value.lastRound).filterMap some ∧
      m.value.entries = [⟨1, "A", none⟩, ⟨2, "B", none⟩] := by
  intro first second m
  have hnew : TxnScanRun (List (Except Error TxnScanPage)) twoRounds some 0 (Mutex.new .new) :=
    .new
  have hfirst : ServesScan twoRounds none (first.pages none) := by
    refine ⟨by decide, fun r => ?_⟩
    show List.filter _ [⟨1, "A", none⟩] = if 0 ≤ r ∧ r ≤ 1 then twoRounds.events r else []
    by_cases h1 : r = 1
    · subst h1; rfl
    · have hne : ¬ 1 = r := fun h => h1 h.symm
      by_cases h0 : r = 0
      · subst h0; rfl
      · have hout : ¬ r ≤ 1 := by omega
        simp [hne, hout]
  have hsecond : ServesScan twoRounds (some 2) (second.pages (some 2)) := by
    refine ⟨by decide, fun r => ?_⟩
    show List.filter _ [⟨2, "B", none⟩] = if 2 ≤ r ∧ r ≤ 2 then twoRounds.events r else []
    by_cases h2 : r = 2
    · subst h2; rfl
    · have hne : ¬ 2 = r := fun h => h2 h.symm
      have hout : ¬ (2 ≤ r ∧ r ≤ 2) := by omega
      simp [hne, hout]
  have hrun := (hnew.scan first (by decide) rfl none rfl hfirst (by decide)).scan second
    (by decide) rfl (some 2) rfl hsecond (by decide)
  exact ⟨TxnScanRun.entries_eq_window hrun, rfl⟩

end BlockchainOps.Algo
