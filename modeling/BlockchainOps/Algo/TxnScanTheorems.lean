import BlockchainOps.Algo.TxnScan

/-!
# What one call of the transaction scan does

`txnScanBody_apply` gives the result of a call in closed form: the decision taken from the
cache (`txnFloor`), the conversation with the indexer (`walk`), and the cache built from the
pages served. The rest of the file reads off it what a call that fails leaves behind.
-/

namespace BlockchainOps.Algo

open Effect Proc Paging

variable {σ T : Type}

/-! ## The decision -/

/-- The decision of `txnFetchFrom`, read off the cache. -/
def txnFloor (mode : QueryMode) (lifetime : Option ℕ) (now : ℕ) (c : TxnScanCache T) :
    Outcome Error (Option (Option ℕ)) :=
  match mode with
  | .cacheOnly => .ok none
  | .forceFull => .ok (some none)
  | .refresh =>
    if c.lastUpdated = 0 then .ok (some none)
    else if scanCacheIsFresh c.lastUpdated now lifetime then .ok none
    else (nextRound c.lastRound).map fun r => some (some r)

/-- The cache a scan starts from. -/
def txnStart (mode : QueryMode) (c : TxnScanCache T) : TxnScanCache T :=
  match mode with
  | .forceFull => { c with entries := [], lastRound := 0 }
  | _ => c

theorem txnStart_of_ne {mode : QueryMode} (h : mode ≠ .forceFull) (c : TxnScanCache T) :
    txnStart mode c = c := by
  rcases mode with _ | _ | _
  · rfl
  · rfl
  · exact absurd rfl h

theorem txnFetchFrom_apply (mode : QueryMode) (lifetime : Option ℕ) (now : ℕ)
    (c : TxnScanCache T) (s : σ) :
    txnFetchFrom mode lifetime now (c, s)
      = (txnFloor mode lifetime now c, txnStart mode c, s) := by
  unfold txnFetchFrom txnFloor
  rcases mode with _ | _ | _
  · rw [bind_of_ok (get_apply _)]
    by_cases hnew : c.lastUpdated = 0
    · simp [hnew, txnStart]
    · by_cases hfresh : scanCacheIsFresh c.lastUpdated now lifetime = true
      · simp [hnew, hfresh, txnStart]
      · simp only [hnew, hfresh, if_false, txnStart]
        rcases nextRound c.lastRound with r | e | w <;> rfl
  · rfl
  · rfl

/-- A scan that is not a forced one starts where the cache stands or from the beginning; a
decision to stay off the network leaves the cache alone. -/
theorem txnStart_of_floor_none {mode : QueryMode} {lifetime : Option ℕ} {now : ℕ}
    {c : TxnScanCache T} (h : txnFloor mode lifetime now c = .ok none) : txnStart mode c = c := by
  refine txnStart_of_ne ?_ c
  rintro rfl
  simp [txnFloor] at h

/-- The three ways to a scan: forced, bootstrap, and incremental right after the watermark. -/
theorem txnFloor_eq_some {mode : QueryMode} {lifetime : Option ℕ} {now : ℕ}
    {c : TxnScanCache T} {minRound : Option ℕ}
    (h : txnFloor mode lifetime now c = .ok (some minRound)) :
    (mode = .forceFull ∧ minRound = none) ∨
      (mode = .refresh ∧ c.lastUpdated = 0 ∧ minRound = none) ∨
      (mode = .refresh ∧ c.lastUpdated ≠ 0 ∧ minRound = some (c.lastRound + 1)) := by
  unfold txnFloor at h
  rcases mode with _ | _ | _
  · by_cases hnew : c.lastUpdated = 0
    · simp only [hnew, if_true, Outcome.ok.injEq, Option.some.injEq] at h
      exact Or.inr (Or.inl ⟨rfl, hnew, h.symm⟩)
    · simp only [hnew, if_false] at h
      by_cases hfresh : scanCacheIsFresh c.lastUpdated now lifetime = true
      · simp [hfresh] at h
      · simp only [hfresh, Bool.false_eq_true, if_false] at h
        obtain ⟨r, hr, hmin⟩ := Outcome.map_eq_ok.mp h
        unfold nextRound at hr
        split_ifs at hr
        have hnext : c.lastRound + 1 = r := Outcome.ok.inj hr
        exact Or.inr (Or.inr ⟨rfl, hnew, by rw [hnext]; exact (Option.some.inj hmin).symm⟩)
  · simp at h
  · simp only [Outcome.ok.injEq, Option.some.injEq] at h
    exact Or.inl ⟨rfl, h.symm⟩

/-! ## The pages -/

/-- What `ingest` accepts of the served pages, in order. -/
def accepted (ingest : ScannedTxn → Option T) (pages : List TxnScanPage) : List T :=
  pages.flatMap fun page => page.txns.filterMap ingest

/-- The greatest `current-round` of the pages, or `r` if that is greater. -/
def topRound (r : ℕ) (pages : List TxnScanPage) : ℕ :=
  pages.foldl (fun w page => max w page.currentRound) r

theorem foldl_absorbTxns (ingest : ScannedTxn → Option T) (pages : List TxnScanPage)
    (c : TxnScanCache T) (w : ℕ) :
    pages.foldl (absorbTxns ingest) (c, w)
      = ({ c with entries := c.entries ++ accepted ingest pages }, topRound w pages) := by
  induction pages generalizing c w with
  | nil => simp [accepted, topRound]
  | cons page pages ih =>
    rw [List.foldl_cons, absorbTxns, ih]
    simp [accepted, topRound, List.append_assoc]

/-- The conversation a call with this floor has with the indexer. -/
def txnWalk (fuel : ℕ) (fetchPage : Option ℕ → Option String → Proc σ Error TxnScanPage)
    (floor : Option ℕ) (s : σ) : Walk σ Error TxnScanPage :=
  walk (fetchPage floor) (·.nextToken) fuel none s

/-! ## The call -/

section Call

variable {fuel : ℕ} {mode : QueryMode} {lifetime : Option ℕ} {now : ℕ}
  {ingest : ScannedTxn → Option T}
  {fetchPage : Option ℕ → Option String → Proc σ Error TxnScanPage}

/-- A call that stays off the network returns at once. -/
theorem txnScanBody_of_none {c : TxnScanCache T}
    (h : txnFloor mode lifetime now c = .ok none) (s : σ) :
    txnScanBody fuel mode lifetime now ingest fetchPage (c, s) = (.ok (), c, s) := by
  unfold txnScanBody
  rw [bind_of_ok (by rw [txnFetchFrom_apply, h]), txnStart_of_floor_none h]
  rfl

/-- A decision that does not return ends the call there. -/
theorem txnScanBody_of_stop {c : TxnScanCache T} {w : Stop}
    (h : txnFloor mode lifetime now c = .stop w) (s : σ) :
    txnScanBody fuel mode lifetime now ingest fetchPage (c, s)
      = (.stop w, txnStart mode c, s) := by
  unfold txnScanBody
  rw [bind_of_stop (by rw [txnFetchFrom_apply, h])]

/-- A scan adds what `ingest` accepts of the pages served, and stamps the cache only when the
last page has come. -/
theorem txnScanBody_of_scan {c : TxnScanCache T} {floor : Option ℕ}
    (h : txnFloor mode lifetime now c = .ok (some floor)) (s : σ) :
    txnScanBody fuel mode lifetime now ingest fetchPage (c, s)
      = ((txnWalk fuel fetchPage floor s).outcome,
          let filled : TxnScanCache T :=
            { txnStart mode c with
              entries := (txnStart mode c).entries
                ++ accepted ingest (txnWalk fuel fetchPage floor s).pages }
          if (txnWalk fuel fetchPage floor s).outcome = .ok () then
            { filled with
              lastRound := topRound (txnStart mode c).lastRound
                (txnWalk fuel fetchPage floor s).pages
              lastUpdated := now }
          else filled,
          (txnWalk fuel fetchPage floor s).world) := by
  unfold txnScanBody
  rw [bind_of_ok (by rw [txnFetchFrom_apply, h])]
  simp only [bind_apply, get_apply, pageLoop_apply, foldl_absorbTxns]
  rw [← txnWalk]
  rcases (txnWalk fuel fetchPage floor s).outcome with ⟨⟩ | e | w <;> simp

/-- The decision is never an error. -/
theorem txnFloor_ne_err {c : TxnScanCache T} {e : Error} :
    txnFloor mode lifetime now c ≠ .err e := by
  unfold txnFloor nextRound
  rcases mode with _ | _ | _
  · split_ifs <;> simp
  · simp
  · simp

/-! ## What a failed call leaves behind -/

/-- If the call returns an error, the cache is exactly what it was. -/
def TxnErrorAtomic (fuel : ℕ) (mode : QueryMode) (lifetime : Option ℕ) (now : ℕ)
    (ingest : ScannedTxn → Option T)
    (fetchPage : Option ℕ → Option String → Proc σ Error TxnScanPage)
    (m : Mutex (TxnScanCache T)) (s : σ) : Prop :=
  ∀ e, (fetchTransactionsCachedWith fuel mode lifetime now ingest fetchPage (m, s)).1 = .err e →
    (fetchTransactionsCachedWith fuel mode lifetime now ingest fetchPage (m, s)).2.1 = m

/-- The pages served before the failing one leave no trace: a refresh accepted nothing from
them, and a forced scan found the cache holding what it accepted from them, at round zero. -/
def TxnFailureLeavesNoTrace (fuel : ℕ) (mode : QueryMode) (lifetime : Option ℕ) (now : ℕ)
    (ingest : ScannedTxn → Option T)
    (fetchPage : Option ℕ → Option String → Proc σ Error TxnScanPage)
    (m : Mutex (TxnScanCache T)) (s : σ) : Prop :=
  m.poisoned = false → ∀ floor e, txnFloor mode lifetime now m.value = .ok (some floor) →
    (txnWalk fuel fetchPage floor s).outcome = .err e →
    if mode = .forceFull then
      m.value.lastRound = 0 ∧
        m.value.entries = accepted ingest (txnWalk fuel fetchPage floor s).pages
    else accepted ingest (txnWalk fuel fetchPage floor s).pages = []

/-- A failed scan left the cache alone exactly when its pages left no trace. -/
private theorem filled_eq_iff (mode : QueryMode) (c : TxnScanCache T) (es : List T) :
    { txnStart mode c with entries := (txnStart mode c).entries ++ es } = c ↔
      if mode = .forceFull then c.lastRound = 0 ∧ c.entries = es else es = [] := by
  obtain ⟨r, u, l⟩ := c
  by_cases hmode : mode = .forceFull
  · subst hmode
    simp only [txnStart, if_true, List.nil_append, TxnScanCache.mk.injEq, true_and]
    exact ⟨fun h => ⟨h.1.symm, h.2.symm⟩, fun h => ⟨h.1.symm, h.2.symm⟩⟩
  · simp [txnStart_of_ne hmode, hmode]

/-- A failed call leaves the cache alone exactly when the pages served before the failing one
leave no trace. -/
theorem fetchTransactionsCachedWith_error_atomic_iff (m : Mutex (TxnScanCache T)) (s : σ) :
    TxnErrorAtomic fuel mode lifetime now ingest fetchPage m s ↔
      TxnFailureLeavesNoTrace fuel mode lifetime now ingest fetchPage m s := by
  refine withLock_error_atomic_iff.trans ⟨fun h hp floor e hfl he => ?_, fun h hp e he => ?_⟩
  · have hsame := h hp e
    rw [txnScanBody_of_scan hfl] at hsame
    have hleft := hsame he
    simp only [he, reduceCtorEq, if_false] at hleft
    exact (filled_eq_iff mode m.value _).mp hleft
  · rcases hfl : txnFloor mode lifetime now m.value with fl | e' | w
    · rcases fl with _ | floor
      · rw [txnScanBody_of_none hfl]
      · rw [txnScanBody_of_scan hfl] at he ⊢
        have he' : (txnWalk fuel fetchPage floor s).outcome = .err e := he
        simp only [he', reduceCtorEq, if_false]
        exact (filled_eq_iff mode m.value _).mpr (h hp floor e hfl he')
    · exact absurd hfl txnFloor_ne_err
    · rw [txnScanBody_of_stop hfl] at he
      exact absurd he (by simp)

end Call

/-- One transaction a round, on a page of its own. -/
def onePage (round : ℕ) (nextToken : Option String) : TxnScanPage :=
  { txns := [⟨round, "A", none⟩], nextToken, currentRound := round }

/-- A refresh whose second page fails keeps the entry of the first page, and the refresh that
follows takes it in again; a forced scan whose second page fails leaves a part of the set, and
a refresh within the freshness window reports it as current. -/
theorem fetchTransactionsCachedWith_not_error_atomic :
    let call (mode : QueryMode) (now : ℕ) :=
      fetchTransactionsCachedWith 2 mode (some 60) now some fun _ _ => scripted
    let m : Mutex (TxnScanCache ScannedTxn) := Mutex.new .new
    let broken : List (Except Error TxnScanPage) :=
      [.ok (onePage 1 (some "next")), .error (.text "down")]
    let whole : List (Except Error TxnScanPage) :=
      [.ok (onePage 1 (some "next")), .ok (onePage 2 none)]
    let full := (call .refresh 100 (m, whole)).2.1
    let after := (call .forceFull 101 (full, broken)).2.1
    ¬ TxnErrorAtomic 2 .refresh (some 60) 100 some (fun _ _ => scripted) m broken ∧
      (call .refresh 100 (m, broken)).1 = .err (.text "down") ∧
      (call .refresh 101 ((call .refresh 100 (m, broken)).2.1, whole)).2.1.value.entries
        = [⟨1, "A", none⟩, ⟨1, "A", none⟩, ⟨2, "A", none⟩] ∧
      full.value.entries = [⟨1, "A", none⟩, ⟨2, "A", none⟩] ∧
      call .refresh 102 (after, []) = (.ok (), after, []) ∧
      after.value.entries = [⟨1, "A", none⟩] := by
  refine ⟨fun h => ?_, rfl, rfl, rfl, rfl, rfl⟩
  have hsame := h (.text "down") rfl
  exact absurd (congrArg (fun c => c.value.entries.length) hsame) (by decide)

end BlockchainOps.Algo
