import BlockchainOps.Algo.AccountScan

/-!
# What one call of the account scan does

The result of a call in closed form, for each of its three kinds, and what a call that fails
leaves behind.
-/

namespace BlockchainOps.Algo

open Effect Proc Paging Keyed

variable {σ T : Type}

/-! ## The decision -/

/-- The decision of `accountScanKind`, read off the cache. -/
def accountKind (mode : QueryMode) (lifetime : Option ℕ) (now : ℕ) (c : AccountScanCache T) :
    Option Bool :=
  match mode with
  | .cacheOnly => none
  | .forceFull => some true
  | .refresh =>
    if c.lastUpdated = 0 ∨ c.lastRound = 0 then some true
    else if scanCacheIsFresh c.lastUpdated now lifetime then none
    else some false

/-- The cache a scan starts from. -/
def accountStart (mode : QueryMode) (c : AccountScanCache T) : AccountScanCache T :=
  match mode with
  | .forceFull => { c with entries := [], lastRound := 0 }
  | _ => c

theorem accountStart_of_ne {mode : QueryMode} (h : mode ≠ .forceFull) (c : AccountScanCache T) :
    accountStart mode c = c := by
  rcases mode with _ | _ | _
  · rfl
  · rfl
  · exact absurd rfl h

/-- Only a full scan is forced. -/
theorem accountStart_of_kind {mode : QueryMode} {lifetime : Option ℕ} {now : ℕ}
    {c : AccountScanCache T} (h : accountKind mode lifetime now c ≠ some true) :
    accountStart mode c = c := by
  refine accountStart_of_ne ?_ c
  rintro rfl
  exact h rfl

/-- An incremental refresh runs on a cache that was scanned before. -/
theorem accountKind_eq_some_false {mode : QueryMode} {lifetime : Option ℕ} {now : ℕ}
    {c : AccountScanCache T} (h : accountKind mode lifetime now c = some false) :
    c.lastUpdated ≠ 0 ∧ c.lastRound ≠ 0 := by
  unfold accountKind at h
  rcases mode with _ | _ | _
  · by_cases hnew : c.lastUpdated = 0 ∨ c.lastRound = 0
    · simp [hnew] at h
    · exact ⟨fun h' => hnew (Or.inl h'), fun h' => hnew (Or.inr h')⟩
  · simp at h
  · simp at h

/-- A full scan is forced, or runs on a cache that lacks its stamp or its watermark. -/
theorem accountKind_eq_some_true {mode : QueryMode} {lifetime : Option ℕ} {now : ℕ}
    {c : AccountScanCache T} (h : accountKind mode lifetime now c = some true) :
    mode = .forceFull ∨ (mode = .refresh ∧ (c.lastUpdated = 0 ∨ c.lastRound = 0)) := by
  unfold accountKind at h
  rcases mode with _ | _ | _
  · by_cases hnew : c.lastUpdated = 0 ∨ c.lastRound = 0
    · exact Or.inr ⟨rfl, hnew⟩
    · rw [if_neg hnew] at h
      split_ifs at h
      all_goals simp at h
  · simp at h
  · exact Or.inl rfl

theorem accountScanKind_apply (mode : QueryMode) (lifetime : Option ℕ) (now : ℕ)
    (c : AccountScanCache T) (s : σ) :
    accountScanKind mode lifetime now (c, s)
      = (.ok (accountKind mode lifetime now c), accountStart mode c, s) := by
  unfold accountScanKind accountKind
  rw [bind_of_ok (get_apply _)]
  rcases mode with _ | _ | _
  · by_cases hnew : c.lastUpdated = 0 ∨ c.lastRound = 0
    · simp [hnew, accountStart]
    · by_cases hfresh : scanCacheIsFresh c.lastUpdated now lifetime = true
      · simp [hnew, hfresh, accountStart]
      · simp [hnew, hfresh, accountStart]
  · rfl
  · rfl

/-! ## A full scan -/

/-- The entries `ingest` makes of the served pages, in order. -/
def acceptedAccounts (ingest : ScannedAccount → Option T) (pages : List AccountScanPage) :
    List (String × T) :=
  (pages.flatMap (·.accounts)).filterMap fun acct =>
    (ingest acct).map fun entry => (acct.address, entry)

/-- The least `current-round` of the pages and of `w`. -/
def leastRound (w : Option ℕ) (pages : List AccountScanPage) : Option ℕ :=
  pages.foldl lowerWatermark w

theorem foldl_absorbAccounts (ingest : ScannedAccount → Option T) (pages : List AccountScanPage)
    (c : AccountScanCache T) (w : Option ℕ) :
    pages.foldl (absorbAccounts ingest) (c, w)
      = ({ c with entries := c.entries ++ acceptedAccounts ingest pages },
          leastRound w pages) := by
  induction pages generalizing c w with
  | nil => simp [acceptedAccounts, leastRound]
  | cons page pages ih =>
    rw [List.foldl_cons, absorbAccounts, ih]
    simp [acceptedAccounts, leastRound, List.append_assoc]

/-- The watermark of a full scan is the round of one of its pages, and at most that of each. -/
theorem leastRound_spec (pages : List AccountScanPage) (hne : pages ≠ []) :
    ∃ r, leastRound none pages = some r ∧ (∃ page ∈ pages, page.currentRound = r) ∧
      ∀ page ∈ pages, r ≤ page.currentRound := by
  have hfrom : ∀ (pages : List AccountScanPage) (w : ℕ),
      ∃ r, leastRound (some w) pages = some r ∧ r ≤ w ∧
        (r = w ∨ ∃ page ∈ pages, page.currentRound = r) ∧
        ∀ page ∈ pages, r ≤ page.currentRound := by
    intro pages
    induction pages with
    | nil => exact fun w => ⟨w, rfl, le_rfl, Or.inl rfl, by simp⟩
    | cons page pages ih =>
      intro w
      obtain ⟨r, hr, hle, hmem, hall⟩ := ih (min w page.currentRound)
      refine ⟨r, hr, by omega, ?_, ?_⟩
      · rcases hmem with hmem | ⟨p, hp, hpr⟩
        · rcases Nat.le_total w page.currentRound with hw | hw
          · exact Or.inl (by omega)
          · exact Or.inr ⟨page, List.mem_cons_self, by omega⟩
        · exact Or.inr ⟨p, List.mem_cons_of_mem _ hp, hpr⟩
      · intro p hp
        rcases List.mem_cons.mp hp with rfl | hp
        · omega
        · exact hall p hp
  rcases pages with _ | ⟨page, pages⟩
  · exact absurd rfl hne
  · obtain ⟨r, hr, hle, hmem, hall⟩ := hfrom pages page.currentRound
    refine ⟨r, hr, ?_, ?_⟩
    · rcases hmem with hmem | ⟨p, hp, hpr⟩
      · exact ⟨page, List.mem_cons_self, hmem.symm⟩
      · exact ⟨p, List.mem_cons_of_mem _ hp, hpr⟩
    · intro p hp
      rcases List.mem_cons.mp hp with rfl | hp
      · exact hle
      · exact hall p hp

/-! ## An incremental refresh -/

/-- The greatest `current-round` of the change pages, or `w` if that is greater. -/
def topChangedRound (w : ℕ) (pages : List ChangedAddressesPage) : ℕ :=
  pages.foldl (fun w page => max w page.currentRound) w

/-- The distinct addresses on the change pages. -/
def changedOf (pages : List ChangedAddressesPage) : List String :=
  (pages.flatMap (·.addresses)).foldl noteChanged []

theorem foldl_absorbChanged (pages : List ChangedAddressesPage) (c : AccountScanCache T) (w : ℕ)
    (changed : List String) :
    pages.foldl absorbChanged (c, w, changed)
      = (c, topChangedRound w pages,
          (pages.flatMap (·.addresses)).foldl noteChanged changed) := by
  induction pages generalizing w changed with
  | nil => rfl
  | cons page pages ih =>
    rw [List.foldl_cons, absorbChanged, ih, List.flatMap_cons, List.foldl_append]
    rfl

theorem topChangedRound_eq_max (w : ℕ) (pages : List ChangedAddressesPage) :
    topChangedRound w pages = max w (topChangedRound 0 pages) := by
  induction pages generalizing w with
  | nil => simp [topChangedRound]
  | cons page pages ih =>
    have hw := ih (max w page.currentRound)
    have h0 := ih (max 0 page.currentRound)
    unfold topChangedRound at hw h0 ⊢
    rw [List.foldl_cons, List.foldl_cons, hw, h0]
    omega

theorem mem_noteChanged {changed : List String} {address a : String} :
    a ∈ noteChanged changed address ↔ a ∈ changed ∨ a = address := by
  unfold noteChanged
  by_cases h : address ∈ changed
  · rw [if_pos h]
    exact ⟨Or.inl, fun h' => h'.elim id fun he => he ▸ h⟩
  · rw [if_neg h]
    simp

theorem nodup_noteChanged {changed : List String} (h : changed.Nodup) (address : String) :
    (noteChanged changed address).Nodup := by
  unfold noteChanged
  by_cases hmem : address ∈ changed
  · rwa [if_pos hmem]
  · rw [if_neg hmem]
    exact List.Nodup.append h (List.nodup_singleton _) (by simpa using hmem)

private theorem foldl_noteChanged (as changed : List String) :
    (changed.Nodup → (as.foldl noteChanged changed).Nodup) ∧
      ∀ a, a ∈ as.foldl noteChanged changed ↔ a ∈ changed ∨ a ∈ as := by
  induction as generalizing changed with
  | nil => simp
  | cons b as ih =>
    obtain ⟨hnd, hmem⟩ := ih (noteChanged changed b)
    refine ⟨fun h => hnd (nodup_noteChanged h b), fun a => ?_⟩
    rw [List.foldl_cons, hmem, mem_noteChanged, List.mem_cons]
    tauto

/-- No address is re-read twice. -/
theorem nodup_changedOf (pages : List ChangedAddressesPage) : (changedOf pages).Nodup :=
  (foldl_noteChanged _ []).1 List.nodup_nil

/-- Every address on a change page is re-read. -/
theorem mem_changedOf {pages : List ChangedAddressesPage} {a : String} :
    a ∈ changedOf pages ↔ ∃ page ∈ pages, a ∈ page.addresses := by
  unfold changedOf
  rw [(foldl_noteChanged _ []).2]
  simp

/-- The edit a re-read asks for: the new entry, or none if the account is gone or rejected. -/
def rereadEdit (ingest : ScannedAccount → Option T) (answer : String × Option ScannedAccount) :
    String × Option T :=
  (answer.1, answer.2.bind ingest)

theorem absorbReread_eq (ingest : ScannedAccount → Option T) (c : AccountScanCache T)
    (answer : String × Option ScannedAccount) :
    absorbReread ingest c answer
      = { c with entries := edit c.entries (rereadEdit ingest answer) } := by
  obtain ⟨a, found⟩ := answer
  unfold absorbReread rereadEdit
  rcases found with _ | acct
  · rfl
  · rcases h : ingest acct with _ | entry <;> simp [h, edit, upsertAccountEntry, removeAccountEntry]

theorem foldl_absorbReread (ingest : ScannedAccount → Option T)
    (answers : List (String × Option ScannedAccount)) (c : AccountScanCache T) :
    answers.foldl (absorbReread ingest) c
      = { c with entries := applyEdits c.entries (answers.map (rereadEdit ingest)) } := by
  induction answers generalizing c with
  | nil => rfl
  | cons answer answers ih =>
    rw [List.foldl_cons, absorbReread_eq, ih]
    rfl

/-! ## The call -/

section Call

variable {fuel : ℕ} {mode : QueryMode} {lifetime : Option ℕ} {now : ℕ}
  {ingest : ScannedAccount → Option T}
  {fetchFullPage : Option String → Proc σ Error AccountScanPage}
  {fetchChanged : ℕ → Option String → Proc σ Error ChangedAddressesPage}
  {lookupAccount : String → Proc σ Error (Option ScannedAccount)}

/-- The pages of a full scan. -/
def fullWalk (fuel : ℕ) (fetchFullPage : Option String → Proc σ Error AccountScanPage) (s : σ) :
    Walk σ Error AccountScanPage :=
  walk fetchFullPage (·.nextToken) fuel none s

/-- The pages of the change discovery with floor `minRound`. -/
def changeWalk (fuel : ℕ) (fetchChanged : ℕ → Option String → Proc σ Error ChangedAddressesPage)
    (minRound : ℕ) (s : σ) : Walk σ Error ChangedAddressesPage :=
  walk (fetchChanged minRound) (·.nextToken) fuel none s

/-- The re-reads that follow the change discovery. -/
def rereads (lookupAccount : String → Proc σ Error (Option ScannedAccount))
    (w : Walk σ Error ChangedAddressesPage) : Walk σ Error (String × Option ScannedAccount) :=
  visits lookupAccount (changedOf w.pages) w.world

/-- The addresses re-read are distinct. -/
theorem nodup_rereads (w : Walk σ Error ChangedAddressesPage) :
    ((rereads lookupAccount w).pages.map Prod.fst).Nodup :=
  (nodup_changedOf w.pages).sublist (visits_fst_isPrefix lookupAccount _ _).sublist

/-- The edits of the re-reads have distinct keys. -/
theorem nodup_rereadEdits (w : Walk σ Error ChangedAddressesPage) :
    (((rereads lookupAccount w).pages.map (rereadEdit ingest)).map Prod.fst).Nodup := by
  rw [List.map_map]
  exact nodup_rereads w

/-- A call that stays off the network returns at once. -/
theorem accountScanBody_of_none {c : AccountScanCache T}
    (h : accountKind mode lifetime now c = none) (s : σ) :
    accountScanBody fuel mode lifetime now ingest fetchFullPage fetchChanged lookupAccount (c, s)
      = (.ok (), c, s) := by
  unfold accountScanBody
  rw [bind_of_ok (accountScanKind_apply mode lifetime now c s), h,
    accountStart_of_kind (by rw [h]; simp)]
  rfl

/-- A full scan rebuilds the entries from the pages served, and stamps the cache only when the
last page has come. -/
theorem accountScanBody_of_full {c : AccountScanCache T}
    (h : accountKind mode lifetime now c = some true) (s : σ) :
    accountScanBody fuel mode lifetime now ingest fetchFullPage fetchChanged lookupAccount (c, s)
      = ((fullWalk fuel fetchFullPage s).outcome,
          let filled : AccountScanCache T :=
            { accountStart mode c with
              entries := acceptedAccounts ingest (fullWalk fuel fetchFullPage s).pages }
          if (fullWalk fuel fetchFullPage s).outcome = .ok () then
            { filled with
              lastRound := (leastRound none (fullWalk fuel fetchFullPage s).pages).getD
                (accountStart mode c).lastRound
              lastUpdated := now }
          else filled,
          (fullWalk fuel fetchFullPage s).world) := by
  unfold accountScanBody
  rw [bind_of_ok (accountScanKind_apply mode lifetime now c s), h]
  simp only [bind_apply, modify_apply, pageLoop_apply, foldl_absorbAccounts, List.nil_append]
  rw [← fullWalk]
  rcases (fullWalk fuel fetchFullPage s).outcome with ⟨⟩ | e | w <;> simp

/-- An incremental refresh without a next round does not return. -/
theorem accountScanBody_of_overflow {c : AccountScanCache T}
    (h : accountKind mode lifetime now c = some false) (hmax : ¬ c.lastRound + 1 < 2 ^ 64)
    (s : σ) :
    accountScanBody fuel mode lifetime now ingest fetchFullPage fetchChanged lookupAccount (c, s)
      = (.stop .panic, c, s) := by
  unfold accountScanBody
  rw [bind_of_ok (accountScanKind_apply mode lifetime now c s), h,
    accountStart_of_kind (by rw [h]; simp)]
  simp only [bind_apply, get_apply, ofOutcome_apply, nextRound, if_neg hmax]

/-- An incremental refresh edits the entries as the changed accounts are re-read, and moves the
watermark only when all of them are. -/
theorem accountScanBody_of_changes {c : AccountScanCache T}
    (h : accountKind mode lifetime now c = some false) (hmax : c.lastRound + 1 < 2 ^ 64) (s : σ) :
    accountScanBody fuel mode lifetime now ingest fetchFullPage fetchChanged lookupAccount (c, s)
      = let discovery := changeWalk fuel fetchChanged (c.lastRound + 1) s
        let answers := rereads lookupAccount discovery
        let edited : AccountScanCache T :=
          { c with entries := applyEdits c.entries (answers.pages.map (rereadEdit ingest)) }
        match discovery.outcome with
        | .ok () => (answers.outcome,
            if answers.outcome = .ok () then
              { edited with
                lastRound := topChangedRound c.lastRound discovery.pages, lastUpdated := now }
            else edited,
            answers.world)
        | .err e => (.err e, c, discovery.world)
        | .stop w => (.stop w, c, discovery.world) := by
  unfold accountScanBody
  rw [bind_of_ok (accountScanKind_apply mode lifetime now c s), h,
    accountStart_of_kind (by rw [h]; simp)]
  simp only [bind_apply, get_apply, ofOutcome_apply, nextRound, if_pos hmax, pageLoop_apply,
    foldl_absorbChanged]
  rw [← changeWalk, ← changedOf]
  rcases (changeWalk fuel fetchChanged (c.lastRound + 1) s).outcome with ⟨⟩ | e | w
  · simp only [Outcome.map_ok, visitAll_apply, foldl_absorbReread, modify_apply]
    rw [← rereads]
    rcases (rereads lookupAccount
      (changeWalk fuel fetchChanged (c.lastRound + 1) s)).outcome with ⟨⟩ | e | w <;> simp
  · simp
  · simp

/-! ## What a failed call leaves behind -/

/-- If the call returns an error, the cache is exactly what it was. -/
def AccountErrorAtomic (fuel : ℕ) (mode : QueryMode) (lifetime : Option ℕ) (now : ℕ)
    (ingest : ScannedAccount → Option T)
    (fetchFullPage : Option String → Proc σ Error AccountScanPage)
    (fetchChanged : ℕ → Option String → Proc σ Error ChangedAddressesPage)
    (lookupAccount : String → Proc σ Error (Option ScannedAccount))
    (m : Mutex (AccountScanCache T)) (s : σ) : Prop :=
  let call := fetchOptedInAccountsCachedWith fuel mode lifetime now ingest fetchFullPage
    fetchChanged lookupAccount (m, s)
  ∀ e, call.1 = .err e → call.2.1 = m

/-- What was taken in before the failure leaves no trace. A full scan that fails on a page found
the cache holding what the pages before it give (at round zero, if it was forced); a failing
re-read comes after answers that say what the cache says already. A failing change page needs
nothing. -/
def AccountFailureLeavesNoTrace (fuel : ℕ) (mode : QueryMode) (lifetime : Option ℕ) (now : ℕ)
    (ingest : ScannedAccount → Option T)
    (fetchFullPage : Option String → Proc σ Error AccountScanPage)
    (fetchChanged : ℕ → Option String → Proc σ Error ChangedAddressesPage)
    (lookupAccount : String → Proc σ Error (Option ScannedAccount))
    (m : Mutex (AccountScanCache T)) (s : σ) : Prop :=
  let full := fullWalk fuel fetchFullPage s
  let discovery := changeWalk fuel fetchChanged (m.value.lastRound + 1) s
  let answers := rereads lookupAccount discovery
  m.poisoned = false →
    match accountKind mode lifetime now m.value with
    | none => True
    | some true => ∀ e, full.outcome = .err e →
        m.value.entries = acceptedAccounts ingest full.pages ∧
          (mode = .forceFull → m.value.lastRound = 0)
    | some false => m.value.lastRound + 1 < 2 ^ 64 → discovery.outcome = .ok () →
        ∀ e, answers.outcome = .err e →
          ∀ answer ∈ answers.pages, m.value.entries.lookup answer.1 = answer.2.bind ingest

/-- A failed full scan left the cache alone exactly when its pages left no trace. -/
private theorem rebuilt_eq_iff (mode : QueryMode) (c : AccountScanCache T)
    (es : List (String × T)) :
    { accountStart mode c with entries := es } = c ↔
      c.entries = es ∧ (mode = .forceFull → c.lastRound = 0) := by
  obtain ⟨r, u, l⟩ := c
  by_cases hmode : mode = .forceFull
  · subst hmode
    simp only [accountStart, AccountScanCache.mk.injEq, true_and, forall_const]
    exact ⟨fun h => ⟨h.2.symm, h.1.symm⟩, fun h => ⟨h.2.symm, h.1.symm⟩⟩
  · simp only [accountStart_of_ne hmode, AccountScanCache.mk.injEq, true_and, hmode,
      false_implies, and_true]
    exact ⟨fun h => h.symm, fun h => h.symm⟩

/-- A failed re-read left the cache alone exactly when the answers before it left no trace. -/
private theorem edited_eq_iff (ingest : ScannedAccount → Option T) (c : AccountScanCache T)
    (w : Walk σ Error ChangedAddressesPage) :
    { c with
      entries := applyEdits c.entries
        ((rereads lookupAccount w).pages.map (rereadEdit ingest)) } = c ↔
      ∀ answer ∈ (rereads lookupAccount w).pages,
        c.entries.lookup answer.1 = answer.2.bind ingest := by
  obtain ⟨r, u, l⟩ := c
  simp only [AccountScanCache.mk.injEq, true_and]
  rw [applyEdits_eq_self_iff (nodup_rereadEdits w), List.forall_mem_map]
  rfl

/-- A failed call leaves the cache alone exactly when what was taken in before the failure leaves
no trace. -/
theorem fetchOptedInAccountsCachedWith_error_atomic_iff (m : Mutex (AccountScanCache T)) (s : σ) :
    AccountErrorAtomic fuel mode lifetime now ingest fetchFullPage fetchChanged lookupAccount m s ↔
      AccountFailureLeavesNoTrace fuel mode lifetime now ingest fetchFullPage fetchChanged
        lookupAccount m s := by
  refine withLock_error_atomic_iff.trans (imp_congr_right fun _ => ?_)
  rcases hkind : accountKind mode lifetime now m.value with _ | _ | _
  · -- off the network there is no error
    simp [accountScanBody_of_none hkind]
  · by_cases hmax : m.value.lastRound + 1 < 2 ^ 64
    · rw [accountScanBody_of_changes hkind hmax]
      rcases hdisc : (changeWalk fuel fetchChanged (m.value.lastRound + 1) s).outcome with
        ⟨⟩ | e | w
      · simp only [hdisc, hmax, forall_const]
        refine forall_congr' fun e => imp_congr_right fun he => ?_
        rw [he, if_neg (by simp)]
        exact edited_eq_iff ingest m.value _
      · simp [hdisc]
      · simp [hdisc]
    · rw [accountScanBody_of_overflow hkind hmax]
      exact iff_of_true (fun e he => absurd he (by simp)) fun h => absurd h hmax
  · rw [accountScanBody_of_full hkind]
    refine forall_congr' fun e => imp_congr_right fun he => ?_
    have he' : (fullWalk fuel fetchFullPage s).outcome = .err e := he
    simp only [he', reduceCtorEq, if_false]
    exact rebuilt_eq_iff mode m.value _

end Call

/-- A refresh whose second re-read fails keeps the answer of the first, with the old watermark and
stamp; a forced scan whose second page fails leaves a part of the set at round zero. -/
theorem fetchOptedInAccountsCachedWith_not_error_atomic :
    let a : ScannedAccount := ⟨"A", [("k", "new")]⟩
    let c : AccountScanCache ScannedAccount := ⟨5, 10, [("A", ⟨"A", [("k", "old")]⟩)]⟩
    let fullPage : Option String → Proc Unit Error AccountScanPage := fun next =>
      if next = none then pure ⟨[a], some "next", 7⟩ else raise (.text "down")
    let changed : ℕ → Option String → Proc Unit Error ChangedAddressesPage := fun _ _ =>
      pure ⟨["A", "B"], none, 7⟩
    let lookup : String → Proc Unit Error (Option ScannedAccount) := fun address =>
      if address = "A" then pure (some a) else raise (.text "down")
    let call (mode : QueryMode) :=
      fetchOptedInAccountsCachedWith 2 mode none 20 some fullPage changed lookup
    ¬ AccountErrorAtomic 2 .refresh none 20 some fullPage changed lookup (Mutex.new c) () ∧
      call .refresh (Mutex.new c, ()) = (.err (.text "down"), Mutex.new ⟨5, 10, [("A", a)]⟩, ()) ∧
      call .forceFull (Mutex.new c, ())
        = (.err (.text "down"), Mutex.new ⟨0, 10, [("A", a)]⟩, ()) := by
  intro a c fullPage changed lookup call
  refine ⟨fun h => ?_, rfl, rfl⟩
  have hsame := h (.text "down") rfl
  exact absurd (congrArg (fun m => m.value.entries) hsame) (by decide)

end BlockchainOps.Algo
