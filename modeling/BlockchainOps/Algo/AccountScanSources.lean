import BlockchainOps.Algo.AccountScanRuns

/-!
# Where the entries of an account scan come from

Whatever a run of the account scan assumes of its calls beyond the indexer's contract, and however
its calls end, every entry of the cache is what the scan makes of an account as it once was: no
entry is made up, and none is put under another account's address. The scan of a cache that is new
holds every account that did not change while it ran.
-/

namespace BlockchainOps.Algo

open Effect Proc Paging Keyed

variable {σ T : Type} {S : StateHistory} {ingest : ScannedAccount → Option T}

/-- Every entry is what the scan makes of the account with its address, after some round that the
chain has reached. -/
def Sourced (S : StateHistory) (ingest : ScannedAccount → Option T) (height : ℕ)
    (entries : List (String × T)) : Prop :=
  ∀ entry ∈ entries, ∃ r ≤ height, (S.account r entry.1).bind ingest = some entry.2

theorem Sourced.grow {height height' : ℕ} {entries : List (String × T)}
    (h : Sourced S ingest height entries) (hle : height ≤ height') :
    Sourced S ingest height' entries := by
  intro entry hentry
  obtain ⟨r, hr, hmade⟩ := h entry hentry
  exact ⟨r, le_trans hr hle, hmade⟩

/-- The entries a full scan collects, also when it fails. -/
theorem Sourced.accepted {piece : String → ℕ} {height : ℕ} {pages : List AccountScanPage}
    (h : ServesAccounts S piece height pages) :
    Sourced S ingest height (acceptedAccounts ingest pages) := by
  intro entry hentry
  obtain ⟨acct, hacct, hmade⟩ := List.mem_filterMap.mp hentry
  obtain ⟨e, he, rfl⟩ := Option.map_eq_some_iff.mp hmade
  obtain ⟨page, hpage, hon⟩ := List.mem_flatMap.mp hacct
  obtain ⟨i, hi, rfl⟩ := List.mem_iff_getElem.mp hpage
  have hstate := ((h.exact i _ (List.getElem?_eq_getElem hi) acct).mp hon).2
  refine ⟨_, h.reached _ hpage, ?_⟩
  show (S.account _ acct.address).bind ingest = some e
  rw [hstate]
  exact he

/-- The entries after re-reads. -/
theorem Sourced.rereads {lo height height' : ℕ} {entries : List (String × T)}
    (h : Sourced S ingest height entries) (hle : height ≤ height')
    {answers : List (String × Option ScannedAccount)}
    (hanswers : AnswersWithin S lo height' answers) :
    Sourced S ingest height' (applyEdits entries (answers.map (rereadEdit ingest))) := by
  intro entry hentry
  rcases mem_applyEdits hentry with hput | hold
  · obtain ⟨answer, hanswer, hedit⟩ := List.mem_map.mp hput
    obtain ⟨haddress, hmade⟩ := Prod.mk.inj hedit
    obtain ⟨r, -, hr, hstate⟩ := hanswers answer hanswer
    rw [hstate, haddress] at hmade
    exact ⟨r, hr, hmade⟩
  · exact h.grow hle entry hold

/-- Every call keeps the entries sourced, however it ends. -/
theorem Sourced.call {height height' : ℕ} {m : Mutex (AccountScanCache T)}
    (h : Sourced S ingest height m.value.entries) (hle : height ≤ height')
    (call : AccountScanCall σ) (hserved : call.Served S height' m.value) :
    Sourced S ingest height' (call.run ingest m).2.1.value.entries := by
  rcases hp : m.poisoned with _ | _
  · rw [call.run_value hp]
    rcases hkind : call.kind m.value with _ | _ | _
    · rw [accountScanBody_of_none hkind]
      exact h.grow hle
    · by_cases hmax : m.value.lastRound + 1 < 2 ^ 64
      · rw [accountScanBody_of_changes hkind hmax]
        have hlookups := hserved.lookups hkind
        rw [AccountScanCall.answers, AccountScanCall.discovery] at hlookups
        rcases hdisc : (changeWalk call.fuel call.fetchChanged (m.value.lastRound + 1)
          call.world).outcome with ⟨⟩ | e | w
        · have hedited := h.rereads hle (hlookups hdisc)
          simp only [hdisc]
          split_ifs
          · exact hedited
          · exact hedited
        · simp only [hdisc]
          exact h.grow hle
        · simp only [hdisc]
          exact h.grow hle
      · rw [accountScanBody_of_overflow hkind hmax]
        exact h.grow hle
    · obtain ⟨piece, hpages, -⟩ := hserved.full hkind
      rw [accountScanBody_of_full hkind]
      -- the stamp and the watermark do not touch the entries
      have haccepted : Sourced S ingest height' (acceptedAccounts ingest call.full.pages) :=
        .accepted hpages
      dsimp only
      split_ifs
      · exact haccepted
      · exact haccepted
  · have hrefused : (call.run ingest m).2.1 = m := by
      rw [AccountScanCall.run, fetchOptedInAccountsCachedWith, withLock_poisoned hp]
    rw [hrefused]
    exact h.grow hle

/-- In every state a run reaches the entries are sourced. -/
theorem AccountScanRun.sourced
    {assume : AccountScanCall σ → StateHistory → ℕ → AccountScanCache T → Prop} {height : ℕ}
    {m : Mutex (AccountScanCache T)} (h : AccountScanRun S ingest assume height m) :
    Sourced S ingest height m.value.entries := by
  induction h with
  | new => exact fun entry hentry => absurd hentry List.not_mem_nil
  | grow _ hle ih => exact ih.grow hle
  | call _ hle call hserved _ ih => exact ih.call hle call hserved

/-! ## The watermark -/

/-- A call that succeeds was not refused. -/
theorem AccountScanCall.unpoisoned_of_ok {m : Mutex (AccountScanCache T)}
    {call : AccountScanCall σ} (hok : (call.run ingest m).1 = .ok ()) : m.poisoned = false := by
  by_contra hp
  rw [AccountScanCall.run, fetchOptedInAccountsCachedWith,
    withLock_poisoned (by simpa using hp)] at hok
  exact absurd hok (by simp)

/-- A call that succeeds leaves the mutex sound. -/
theorem AccountScanCall.sound_of_ok {m : Mutex (AccountScanCache T)}
    {call : AccountScanCall σ} (hok : (call.run ingest m).1 = .ok ()) :
    (call.run ingest m).2.1.poisoned = false := by
  have hp := AccountScanCall.unpoisoned_of_ok hok
  unfold AccountScanCall.run fetchOptedInAccountsCachedWith withLock at hok ⊢
  simp only [hp, Bool.false_eq_true, if_false] at hok ⊢
  rw [hok]
  rfl

/-- A refresh that succeeds leaves a watermark. -/
theorem AccountScanCall.lastRound_pos {height : ℕ} {m : Mutex (AccountScanCache T)}
    {call : AccountScanCall σ} (hmode : call.mode = .refresh)
    (hserved : call.Served S height m.value) (hok : (call.run ingest m).1 = .ok ()) :
    0 < (call.run ingest m).2.1.value.lastRound := by
  have hp := AccountScanCall.unpoisoned_of_ok hok
  have hbody : (accountScanBody call.fuel call.mode call.lifetime call.now ingest
      call.fetchFullPage call.fetchChanged call.lookupAccount (m.value, call.world)).1 = .ok () :=
    (withLock_fst hp).symm.trans hok
  rw [call.run_value hp]
  rcases hkind : call.kind m.value with _ | _ | _
  · -- a cache that is still fresh has been scanned before
    rw [accountScanBody_of_none hkind]
    have hfresh : accountKind .refresh call.lifetime call.now m.value = none := hmode ▸ hkind
    unfold accountKind at hfresh
    by_cases hnew : m.value.lastUpdated = 0 ∨ m.value.lastRound = 0
    · simp [hnew] at hfresh
    · show 0 < m.value.lastRound
      omega
  · have hold : m.value.lastRound ≠ 0 := (accountKind_eq_some_false hkind).2
    by_cases hmax : m.value.lastRound + 1 < 2 ^ 64
    · rw [accountScanBody_of_changes hkind hmax] at hbody ⊢
      rcases hdisc : (changeWalk call.fuel call.fetchChanged (m.value.lastRound + 1)
        call.world).outcome with ⟨⟩ | e | w
      · simp only [hdisc] at hbody ⊢
        rw [if_pos hbody]
        show 0 < topChangedRound m.value.lastRound _
        rw [topChangedRound_eq_max]
        omega
      · simp [hdisc] at hbody
      · simp [hdisc] at hbody
    · rw [accountScanBody_of_overflow hkind hmax] at hbody
      exact absurd hbody (by simp)
  · obtain ⟨piece, hpages, -⟩ := hserved.full hkind
    rw [accountScanBody_of_full hkind] at hbody ⊢
    have hdone : call.full.outcome = .ok () := hbody
    obtain ⟨r, hr, ⟨page, hpage, hround⟩, -⟩ :=
      leastRound_spec call.full.pages (walk_pages_ne_nil hdone)
    show 0 < (if call.full.outcome = .ok () then _ else _ : AccountScanCache T).lastRound
    rw [if_pos hdone]
    show 0 < (leastRound none call.full.pages).getD _
    rw [hr]
    exact hround ▸ hpages.positive page hpage

end BlockchainOps.Algo
