import BlockchainOps.Algo.AccountScanTheorems

/-!
# Whole runs of the account scan

The local state of every account after every round is a `StateHistory`; the chain has reached a
height that grows at any moment. A run is any sequence of calls on one cache, from the empty
cache on, that end in any way, against an indexer that keeps its contract (`Served`).

In every state reached the cache holds an account's state if the account has not changed since
the watermark (`AccountScanRun.tracks`). This takes two assumptions beyond the contract, which a
run may or may not meet: the clock reads a positive time, and no lookup answers from before the
watermark (`Steady`).
-/

namespace BlockchainOps.Algo

open Effect Proc Paging Keyed

variable {σ T : Type}

/-! ## The chain -/

/-- The local state of every account after every round; `none` when it is not opted in. -/
abbrev StateHistory := ℕ → String → Option (List (String × String))

/-- The account as a scan reports it after round `r`. -/
def StateHistory.account (S : StateHistory) (r : ℕ) (a : String) : Option ScannedAccount :=
  (S r a).map fun localState => ⟨a, localState⟩

/-- The account does not change in the rounds after `lo` up to `hi`. -/
def StateHistory.Unchanged (S : StateHistory) (a : String) (lo hi : ℕ) : Prop :=
  ∀ r, lo < r → r ≤ hi → S r a = S (r - 1) a

theorem StateHistory.account_address {S : StateHistory} {r : ℕ} {a : String}
    {acct : ScannedAccount} (h : S.account r a = some acct) : acct.address = a := by
  obtain ⟨_, _, rfl⟩ := Option.map_eq_some_iff.mp h
  rfl

theorem StateHistory.Unchanged.account_eq {S : StateHistory} {a : String} {lo hi : ℕ}
    (h : S.Unchanged a lo hi) {r : ℕ} (hlo : lo ≤ r) (hhi : r ≤ hi) :
    S.account r a = S.account hi a := by
  induction hi, hhi using Nat.le_induction with
  | base => rfl
  | succ hi hle ih =>
    have hstep : S (hi + 1) a = S hi a := h (hi + 1) (by omega) le_rfl
    have hprev : S.Unchanged a lo hi := fun r hr hr' => h r hr (by omega)
    rw [ih hprev, account, account, hstep]

/-! ## The indexer's contract -/

/-- The pages of a full scan: page `i` lists exactly the accounts in the piece `i` of the address
space, each once, as they are at a round the chain has reached. -/
structure ServesAccounts (S : StateHistory) (piece : String → ℕ) (height : ℕ)
    (pages : List AccountScanPage) : Prop where
  positive : ∀ page ∈ pages, 0 < page.currentRound
  reached : ∀ page ∈ pages, page.currentRound ≤ height
  distinct : ∀ page ∈ pages, (page.accounts.map (·.address)).Nodup
  exact : ∀ i page, pages[i]? = some page → ∀ acct, acct ∈ page.accounts ↔
    piece acct.address = i ∧ S.account page.currentRound acct.address = some acct

/-- The pages of a completed change discovery: every address that changed from the floor up to
the greatest `current-round` of the pages is listed. -/
structure ServesChanges (S : StateHistory) (minRound height : ℕ)
    (pages : List ChangedAddressesPage) : Prop where
  reached : topChangedRound 0 pages ≤ height
  complete : ∀ a r, minRound ≤ r → r ≤ topChangedRound 0 pages → S r a ≠ S (r - 1) a →
    ∃ page ∈ pages, a ∈ page.addresses

/-- Every lookup answers with the state after some round from `lo` to `hi`. -/
def AnswersWithin (S : StateHistory) (lo hi : ℕ)
    (answers : List (String × Option ScannedAccount)) : Prop :=
  ∀ answer ∈ answers, ∃ r, lo ≤ r ∧ r ≤ hi ∧ answer.2 = S.account r answer.1

/-! ## Runs -/

/-- The arguments of one call and the state of the server it meets. -/
structure AccountScanCall (σ : Type) where
  fuel : ℕ
  mode : QueryMode
  lifetime : Option ℕ
  now : ℕ
  fetchFullPage : Option String → Proc σ Error AccountScanPage
  fetchChanged : ℕ → Option String → Proc σ Error ChangedAddressesPage
  lookupAccount : String → Proc σ Error (Option ScannedAccount)
  world : σ

namespace AccountScanCall

/-- The call on a cache. -/
def run (call : AccountScanCall σ) (ingest : ScannedAccount → Option T)
    (m : Mutex (AccountScanCache T)) : Outcome Error Unit × Mutex (AccountScanCache T) × σ :=
  fetchOptedInAccountsCachedWith call.fuel call.mode call.lifetime call.now ingest
    call.fetchFullPage call.fetchChanged call.lookupAccount (m, call.world)

/-- The decision of the call. -/
def kind (call : AccountScanCall σ) (c : AccountScanCache T) : Option Bool :=
  accountKind call.mode call.lifetime call.now c

/-- The full scan the call would make. -/
def full (call : AccountScanCall σ) : Walk σ Error AccountScanPage :=
  fullWalk call.fuel call.fetchFullPage call.world

/-- The change discovery the call would make. -/
def discovery (call : AccountScanCall σ) (c : AccountScanCache T) :
    Walk σ Error ChangedAddressesPage :=
  changeWalk call.fuel call.fetchChanged (c.lastRound + 1) call.world

/-- The re-reads the call would make. -/
def answers (call : AccountScanCall σ) (c : AccountScanCache T) :
    Walk σ Error (String × Option ScannedAccount) :=
  rereads call.lookupAccount (call.discovery c)

/-- The indexer keeps its contract in the call; the chain has reached `height` when it ends. -/
structure Served (call : AccountScanCall σ) (S : StateHistory) (height : ℕ)
    (c : AccountScanCache T) : Prop where
  full : call.kind c = some true → ∃ piece, ServesAccounts S piece height call.full.pages ∧
    (call.full.outcome = .ok () → ∀ a, piece a < call.full.pages.length)
  changes : call.kind c = some false → (call.discovery c).outcome = .ok () →
    ServesChanges S (c.lastRound + 1) height (call.discovery c).pages
  lookups : call.kind c = some false → (call.discovery c).outcome = .ok () →
    AnswersWithin S (topChangedRound 0 (call.discovery c).pages) height (call.answers c).pages

/-- The clock of the call reads a positive time. -/
def ClockPositive (call : AccountScanCall σ) (_ : StateHistory) (_ : ℕ)
    (_ : AccountScanCache T) : Prop :=
  0 < call.now

/-- No lookup of the call answers from before the watermark. -/
def LooksForward (call : AccountScanCall σ) (S : StateHistory) (height : ℕ)
    (c : AccountScanCache T) : Prop :=
  call.kind c = some false → (call.discovery c).outcome = .ok () →
    AnswersWithin S c.lastRound height (call.answers c).pages

/-- The two assumptions together. -/
def Steady (call : AccountScanCall σ) (S : StateHistory) (height : ℕ)
    (c : AccountScanCache T) : Prop :=
  call.ClockPositive S height c ∧ call.LooksForward S height c

end AccountScanCall

/-- `AccountScanRun S ingest assume height m`: a sequence of calls takes the empty cache to `m`
while the chain grows to `height`; the indexer keeps its contract and every call meets
`assume`. -/
inductive AccountScanRun (S : StateHistory) (ingest : ScannedAccount → Option T)
    (assume : AccountScanCall σ → StateHistory → ℕ → AccountScanCache T → Prop) :
    ℕ → Mutex (AccountScanCache T) → Prop
  | new : AccountScanRun S ingest assume 0 (Mutex.new .new)
  | grow {height height' : ℕ} {m : Mutex (AccountScanCache T)}
      (h : AccountScanRun S ingest assume height m) (hle : height ≤ height') :
      AccountScanRun S ingest assume height' m
  | call {height height' : ℕ} {m : Mutex (AccountScanCache T)}
      (h : AccountScanRun S ingest assume height m) (hle : height ≤ height')
      (call : AccountScanCall σ) (hserved : call.Served S height' m.value)
      (hassume : assume call S height' m.value) :
      AccountScanRun S ingest assume height' (call.run ingest m).2.1

variable {S : StateHistory} {ingest : ScannedAccount → Option T}

/-- What the cache says about the chain: one pair for each address, and the present state of
every account that has not changed since the watermark. -/
structure Tracks (S : StateHistory) (ingest : ScannedAccount → Option T) (height : ℕ)
    (c : AccountScanCache T) : Prop where
  distinct : (c.entries.map Prod.fst).Nodup
  current : 0 < c.lastRound → ∀ a, S.Unchanged a c.lastRound height →
    c.entries.lookup a = (S.account height a).bind ingest

/-- What every call preserves. -/
structure AccountScanInv (S : StateHistory) (ingest : ScannedAccount → Option T) (height : ℕ)
    (c : AccountScanCache T) : Prop extends Tracks S ingest height c where
  reached : c.lastRound ≤ height
  unstamped : c.lastUpdated = 0 → c.lastRound = 0

theorem AccountScanInv.new : AccountScanInv S ingest 0 AccountScanCache.new where
  distinct := List.nodup_nil
  current := fun h => absurd h (by simp [AccountScanCache.new])
  reached := le_rfl
  unstamped := fun _ => rfl

/-- A cache at round zero promises nothing about the accounts. -/
theorem AccountScanInv.of_zero {height : ℕ} {c : AccountScanCache T}
    (hdistinct : (c.entries.map Prod.fst).Nodup) (hzero : c.lastRound = 0) :
    AccountScanInv S ingest height c where
  distinct := hdistinct
  current := fun h => absurd hzero (Nat.pos_iff_ne_zero.mp h)
  reached := hzero ▸ Nat.zero_le height
  unstamped := fun _ => hzero

theorem AccountScanInv.grow {height height' : ℕ} {c : AccountScanCache T}
    (h : AccountScanInv S ingest height c) (hle : height ≤ height') :
    AccountScanInv S ingest height' c where
  distinct := h.distinct
  current := by
    intro hpos a hun
    have hhere : S.Unchanged a c.lastRound height := fun r hr hr' => hun r hr (by omega)
    rw [h.current hpos a hhere, hun.account_eq h.reached hle]
  reached := le_trans h.reached hle
  unstamped := h.unstamped

/-! ## A full scan -/

section Full

variable {piece : String → ℕ} {height : ℕ} {pages : List AccountScanPage}

/-- The pages of a full scan list no address twice. -/
theorem ServesAccounts.nodup (h : ServesAccounts S piece height pages) :
    ((pages.flatMap (·.accounts)).map (·.address)).Nodup := by
  rw [List.map_flatMap, List.nodup_flatMap]
  refine ⟨h.distinct, List.pairwise_iff_getElem.mpr fun i j hi hj hlt a hai haj => ?_⟩
  -- an address on two pages would lie in two pieces
  obtain ⟨acct, hacct, rfl⟩ := List.mem_map.mp hai
  obtain ⟨acct', hacct', heq⟩ := List.mem_map.mp haj
  have hpi := ((h.exact i _ (List.getElem?_eq_getElem hi) acct).mp hacct).1
  have hpj := ((h.exact j _ (List.getElem?_eq_getElem hj) acct').mp hacct').1
  rw [heq] at hpj
  omega

/-- The entries a full scan collects have distinct addresses, also when it fails. -/
theorem ServesAccounts.nodup_accepted (h : ServesAccounts S piece height pages) :
    ((acceptedAccounts ingest pages).map Prod.fst).Nodup :=
  nodup_keys_filterMap _ _ h.nodup

/-- A completed full scan holds every account as it was at the round of its page. -/
theorem ServesAccounts.lookup_accepted (h : ServesAccounts S piece height pages)
    (ingest : ScannedAccount → Option T) {a : String} (ha : piece a < pages.length) :
    ∃ page ∈ pages, (acceptedAccounts ingest pages).lookup a
      = (S.account page.currentRound a).bind ingest := by
  have hpage : pages[piece a]? = some (pages[piece a]) := List.getElem?_eq_getElem ha
  refine ⟨pages[piece a], List.getElem_mem ha, ?_⟩
  rcases hacct : S.account (pages[piece a]).currentRound a with _ | acct
  · refine lookup_filterMap_of_notMem (·.address) ingest fun hmem => ?_
    -- the account would be on the page of its piece
    obtain ⟨acct, hacct', rfl⟩ := List.mem_map.mp hmem
    obtain ⟨page, hpage', hon⟩ := List.mem_flatMap.mp hacct'
    obtain ⟨i, hi, rfl⟩ := List.mem_iff_getElem.mp hpage'
    obtain ⟨hpi, hstate⟩ := (h.exact i _ (List.getElem?_eq_getElem hi) acct).mp hon
    subst hpi
    rw [hacct] at hstate
    exact absurd hstate (by simp)
  · have haddr := StateHistory.account_address hacct
    subst haddr
    have hon := (h.exact _ _ hpage acct).mpr ⟨rfl, hacct⟩
    have hmem : acct ∈ pages.flatMap (·.accounts) :=
      List.mem_flatMap.mpr ⟨_, List.getElem_mem ha, hon⟩
    exact lookup_filterMap_of_mem (·.address) ingest h.nodup hmem

end Full

/-! ## An incremental refresh -/

/-- The entries after re-reads: what was answered for the addresses asked about, the old pairs
for the others. -/
theorem lookup_applyEdits_rereads (ingest : ScannedAccount → Option T)
    (lookupAccount : String → Proc σ Error (Option ScannedAccount))
    (w : Walk σ Error ChangedAddressesPage) (entries : List (String × T)) (a : String) :
    (∃ found, (a, found) ∈ (rereads lookupAccount w).pages ∧
      (applyEdits entries ((rereads lookupAccount w).pages.map (rereadEdit ingest))).lookup a
        = found.bind ingest) ∨
    (a ∉ (rereads lookupAccount w).pages.map Prod.fst ∧
      (applyEdits entries ((rereads lookupAccount w).pages.map (rereadEdit ingest))).lookup a
        = entries.lookup a) := by
  by_cases hmem : a ∈ (rereads lookupAccount w).pages.map Prod.fst
  · obtain ⟨⟨b, found⟩, hfound, rfl⟩ := List.mem_map.mp hmem
    refine Or.inl ⟨found, hfound, ?_⟩
    exact lookup_applyEdits (nodup_rereadEdits w)
      (List.mem_map.mpr ⟨(b, found), hfound, rfl⟩) entries
  · refine Or.inr ⟨hmem, lookup_applyEdits_of_notMem ?_ entries⟩
    rwa [List.map_map]

/-- Re-reads that answer from `lo` on keep the cache up to date, if every account that changed
since the old watermark up to `lo` is re-read or the watermark stays where it was. -/
theorem AccountScanInv.current_of_rereads {height height' round : ℕ} {c : AccountScanCache T}
    (h : AccountScanInv S ingest height c) (hle : height ≤ height') (hpos : 0 < c.lastRound)
    {w : Walk σ Error ChangedAddressesPage}
    {lookupAccount : String → Proc σ Error (Option ScannedAccount)}
    (hanswers : AnswersWithin S round height' (rereads lookupAccount w).pages)
    (hfound : ∀ a r, c.lastRound < r → r ≤ round → S r a ≠ S (r - 1) a →
      a ∈ (rereads lookupAccount w).pages.map Prod.fst)
    {a : String} (hun : S.Unchanged a round height') :
    (applyEdits c.entries ((rereads lookupAccount w).pages.map (rereadEdit ingest))).lookup a
      = (S.account height' a).bind ingest := by
  rcases lookup_applyEdits_rereads ingest lookupAccount w c.entries a with ⟨found, hmem, hlook⟩ | ⟨hnot, hlook⟩
  · obtain ⟨r, hlo, hhi, hstate⟩ := hanswers _ hmem
    have hanswer : found = S.account r a := hstate
    rw [hlook, hanswer, hun.account_eq hlo hhi]
  · -- the account was not re-read, so it has not changed since the old watermark either
    have hold : S.Unchanged a c.lastRound height' := by
      intro r hr hr'
      by_contra hchanged
      rcases Nat.lt_or_ge round r with hafter | hbefore
      · exact hchanged (hun r hafter hr')
      · exact hnot (hfound a r hr hbefore hchanged)
    rw [hlook]
    exact (h.grow hle).current hpos a hold

/-! ## The call -/

/-- On a mutex that is not poisoned the call leaves the cache its body leaves. -/
theorem AccountScanCall.run_value {m : Mutex (AccountScanCache T)} (hp : m.poisoned = false)
    (call : AccountScanCall σ) :
    (call.run ingest m).2.1.value
      = (accountScanBody call.fuel call.mode call.lifetime call.now ingest call.fetchFullPage
          call.fetchChanged call.lookupAccount (m.value, call.world)).2.1 :=
  withLock_value hp

/-- A full scan keeps the invariant, also when it fails: then the cache stands at round zero. -/
theorem AccountScanInv.full {height height' : ℕ} {m : Mutex (AccountScanCache T)}
    (h : AccountScanInv S ingest height m.value) (hp : m.poisoned = false)
    (call : AccountScanCall σ) (hkind : call.kind m.value = some true)
    (hserved : call.Served S height' m.value) (hnow : 0 < call.now) :
    AccountScanInv S ingest height' (call.run ingest m).2.1.value := by
  obtain ⟨piece, hpages, hwhole⟩ := hserved.full hkind
  rw [call.run_value hp, accountScanBody_of_full hkind]
  show AccountScanInv S ingest height' (if call.full.outcome = .ok () then _ else _)
  by_cases hok : call.full.outcome = .ok ()
  · rw [if_pos hok]
    obtain ⟨r, hr, ⟨first, hfirst, hfirstr⟩, hleast⟩ :=
      leastRound_spec call.full.pages (walk_pages_ne_nil hok)
    have hreached : r ≤ height' := hfirstr ▸ hpages.reached first hfirst
    refine ⟨⟨hpages.nodup_accepted, fun _ a hun => ?_⟩, ?_, fun hzero => ?_⟩
    · obtain ⟨page, hpage, hlook⟩ := hpages.lookup_accepted ingest (hwhole hok a)
      have hsince : S.Unchanged a r height' := by
        have hun' : S.Unchanged a ((leastRound none call.full.pages).getD _) height' := hun
        rwa [hr] at hun'
      show (acceptedAccounts ingest call.full.pages).lookup a = _
      rw [hlook, hsince.account_eq (hleast page hpage) (hpages.reached page hpage)]
    · show (leastRound none call.full.pages).getD _ ≤ height'
      rwa [hr]
    · exact absurd hzero (Nat.pos_iff_ne_zero.mp hnow)
  · rw [if_neg hok]
    refine .of_zero hpages.nodup_accepted ?_
    show (accountStart call.mode m.value).lastRound = 0
    rcases accountKind_eq_some_true hkind with hmode | ⟨hmode, hnew⟩
    · rw [hmode]
      rfl
    · rw [hmode, accountStart_of_ne (by simp)]
      exact hnew.elim h.unstamped id

/-- An incremental refresh keeps the invariant, also when it fails. -/
theorem AccountScanInv.changes {height height' : ℕ} {m : Mutex (AccountScanCache T)}
    (h : AccountScanInv S ingest height m.value) (hle : height ≤ height')
    (hp : m.poisoned = false) (call : AccountScanCall σ)
    (hkind : call.kind m.value = some false) (hserved : call.Served S height' m.value)
    (hsteady : call.Steady S height' m.value) :
    AccountScanInv S ingest height' (call.run ingest m).2.1.value := by
  have hpos : 0 < m.value.lastRound :=
    Nat.pos_of_ne_zero (accountKind_eq_some_false hkind).2
  rw [call.run_value hp]
  by_cases hmax : m.value.lastRound + 1 < 2 ^ 64
  · rw [accountScanBody_of_changes hkind hmax]
    have hpages := hserved.changes hkind
    have hlookups := hserved.lookups hkind
    have hforward := hsteady.2 hkind
    rw [AccountScanCall.answers] at hlookups hforward
    rw [AccountScanCall.discovery] at hpages hlookups hforward
    rcases hdisc : (changeWalk call.fuel call.fetchChanged (m.value.lastRound + 1)
      call.world).outcome with ⟨⟩ | e | w
    · simp only [hdisc]
      specialize hpages hdisc
      specialize hlookups hdisc
      specialize hforward hdisc
      generalize changeWalk call.fuel call.fetchChanged (m.value.lastRound + 1) call.world
        = discovery at hpages hlookups hforward ⊢
      have hdistinct := nodup_keys_applyEdits
        ((rereads call.lookupAccount discovery).pages.map (rereadEdit ingest)) h.distinct
      by_cases hok : (rereads call.lookupAccount discovery).outcome = .ok ()
      · rw [if_pos hok]
        have htop := topChangedRound_eq_max m.value.lastRound discovery.pages
        -- the answers come from the new watermark on
        have hanswers : AnswersWithin S (topChangedRound m.value.lastRound discovery.pages) height'
            (rereads call.lookupAccount discovery).pages := by
          rw [htop]
          rcases Nat.le_total m.value.lastRound (topChangedRound 0 discovery.pages) with hr | hr
          · rwa [Nat.max_eq_right hr]
          · rwa [Nat.max_eq_left hr]
        -- every account that changed up to the new watermark is re-read
        have hfound : ∀ a r, m.value.lastRound < r →
            r ≤ topChangedRound m.value.lastRound discovery.pages → S r a ≠ S (r - 1) a →
            a ∈ (rereads call.lookupAccount discovery).pages.map Prod.fst := by
          intro a r hr hr' hchanged
          rw [rereads, visits_map_fst _ _ _ hok]
          refine mem_changedOf.mpr (hpages.complete a r hr ?_ hchanged)
          omega
        refine ⟨⟨hdistinct, fun _ a hun => ?_⟩, ?_, fun hzero => ?_⟩
        · exact h.current_of_rereads hle hpos hanswers hfound hun
        · show topChangedRound m.value.lastRound discovery.pages ≤ height'
          have hreached := hpages.reached
          have hold := h.reached
          omega
        · exact absurd hzero (Nat.pos_iff_ne_zero.mp hsteady.1)
      · rw [if_neg hok]
        refine ⟨⟨hdistinct, fun _ a hun => ?_⟩, le_trans h.reached hle, h.unstamped⟩
        -- the watermark stays where it was
        refine h.current_of_rereads hle hpos hforward (fun a r hr hr' => ?_) hun
        omega
    · simp only [hdisc]
      exact h.grow hle
    · simp only [hdisc]
      exact h.grow hle
  · rw [accountScanBody_of_overflow hkind hmax]
    exact h.grow hle

/-- Every call keeps the invariant, however it ends. -/
theorem AccountScanInv.call {height height' : ℕ} {m : Mutex (AccountScanCache T)}
    (h : AccountScanInv S ingest height m.value) (hle : height ≤ height')
    (call : AccountScanCall σ) (hserved : call.Served S height' m.value)
    (hsteady : call.Steady S height' m.value) :
    AccountScanInv S ingest height' (call.run ingest m).2.1.value := by
  rcases hp : m.poisoned with _ | _
  · rcases hkind : call.kind m.value with _ | _ | _
    · rw [call.run_value hp, accountScanBody_of_none hkind]
      exact h.grow hle
    · exact h.changes hle hp call hkind hserved hsteady
    · exact h.full hp call hkind hserved hsteady.1
  · have hrefused : (call.run ingest m).2.1 = m := by
      rw [AccountScanCall.run, fetchOptedInAccountsCachedWith, withLock_poisoned hp]
    rw [hrefused]
    exact h.grow hle

theorem AccountScanRun.inv {height : ℕ} {m : Mutex (AccountScanCache T)}
    (h : AccountScanRun S ingest (@AccountScanCall.Steady σ T) height m) :
    AccountScanInv S ingest height m.value := by
  induction h with
  | new => exact .new
  | grow _ hle ih => exact ih.grow hle
  | call _ hle call hserved hsteady ih => exact ih.call hle call hserved hsteady

/-- In every state a run reaches, whatever failed in it, the cache holds one pair for each
address, and the present state of every account that has not changed since the watermark. -/
theorem AccountScanRun.tracks {height : ℕ} {m : Mutex (AccountScanCache T)}
    (h : AccountScanRun S ingest (@AccountScanCall.Steady σ T) height m) :
    Tracks S ingest height m.value :=
  h.inv.toTracks

/-- A run whose calls assume more is a run whose calls assume less. -/
theorem AccountScanRun.weaken
    {assume assume' : AccountScanCall σ → StateHistory → ℕ → AccountScanCache T → Prop}
    (himp : ∀ call height c, assume call S height c → assume' call S height c)
    {height : ℕ} {m : Mutex (AccountScanCache T)}
    (h : AccountScanRun S ingest assume height m) : AccountScanRun S ingest assume' height m := by
  induction h with
  | new => exact .new
  | grow _ hle ih => exact ih.grow hle
  | call _ hle call hserved hassume ih => exact ih.call hle call hserved (himp _ _ _ hassume)

/-! ## Runs of one account -/

/-- Account `A` opts in in round 1 and changes in round 2. -/
def oneAccount : StateHistory := fun r a =>
  if a = "A" then (if r = 0 then none else if r = 1 then some [("k", "1")] else some [("k", "2")])
  else none

/-- A call against a server that lists the account on its one page after `round`, and answers a
lookup of it with `found`. -/
def oneAccountCall (now round : ℕ) (page : Except Error Unit) (found : Option ScannedAccount) :
    AccountScanCall Unit where
  fuel := 1
  mode := .refresh
  lifetime := none
  now := now
  fetchFullPage := fun _ =>
    match page with
    | .ok () => pure ⟨(oneAccount.account round "A").toList, none, round⟩
    | .error e => raise e
  fetchChanged := fun _ _ => pure ⟨["A"], none, round⟩
  lookupAccount := fun _ => pure found
  world := ()

theorem oneAccount_other {a : String} (h : a ≠ "A") (r : ℕ) : oneAccount r a = none := by
  simp [oneAccount, h]

/-- The one page of a full scan lists the account. -/
theorem servesAccounts_onePage {round height : ℕ} (hround : 0 < round) (hle : round ≤ height) :
    ServesAccounts oneAccount (fun _ => 0) height
      [⟨(oneAccount.account round "A").toList, none, round⟩] := by
  refine ⟨by simpa using hround, by simpa using hle, ?_, fun i page hpage acct => ?_⟩
  · rintro page hpage
    rw [List.mem_singleton.mp hpage]
    rcases oneAccount.account round "A" with _ | acct <;> simp
  · obtain ⟨rfl, rfl⟩ : i = 0 ∧ page = ⟨(oneAccount.account round "A").toList, none, round⟩ := by
      rcases i with _ | i
      · exact ⟨rfl, (Option.some.inj hpage).symm⟩
      · simp at hpage
    show acct ∈ (oneAccount.account round "A").toList ↔
      0 = 0 ∧ oneAccount.account round acct.address = some acct
    rw [Option.mem_toList]
    constructor
    · intro hacct
      have haddr := StateHistory.account_address hacct
      exact ⟨rfl, by rw [haddr]; exact hacct⟩
    · rintro ⟨_, hacct⟩
      -- no other account is ever opted in
      by_cases haddr : acct.address = "A"
      · rwa [haddr] at hacct
      · rw [StateHistory.account, oneAccount_other haddr] at hacct
        exact absurd hacct (by simp)

/-- The server of `oneAccountCall` keeps the contract if its lookup answers with a state from
`round` on. -/
theorem oneAccountCall_served {now round height : ℕ} {page : Except Error Unit}
    {found : Option ScannedAccount} (hround : 0 < round) (hle : round ≤ height)
    (hfound : ∃ r, round ≤ r ∧ r ≤ height ∧ found = oneAccount.account r "A")
    (c : AccountScanCache T) :
    (oneAccountCall now round page found).Served oneAccount height c := by
  refine ⟨fun _ => ⟨fun _ => 0, ?_, ?_⟩, fun _ _ => ⟨?_, fun a r _ _ hchanged => ?_⟩, ?_⟩
  · rcases page with e | ⟨⟩
    · have hnone : (oneAccountCall now round (.error e) found).full.pages = [] := rfl
      rw [hnone]
      exact ⟨by simp, by simp, by simp, by simp⟩
    · exact servesAccounts_onePage hround hle
  · rcases page with e | ⟨⟩
    · intro hok
      have herr : (oneAccountCall now round (.error e) found).full.outcome = .err e := rfl
      rw [herr] at hok
      exact absurd hok (by simp)
    · intro _ _
      exact Nat.one_pos
  · show max 0 round ≤ height
    omega
  · refine ⟨⟨["A"], none, round⟩, List.mem_singleton.mpr rfl, List.mem_singleton.mpr ?_⟩
    by_contra hne
    exact hchanged (by rw [oneAccount_other hne, oneAccount_other hne])
  · intro _ _ answer hanswer
    have honly : answer = ("A", found) := List.mem_singleton.mp hanswer
    obtain ⟨r, hlo, hhi, hstate⟩ := hfound
    refine ⟨r, ?_, hhi, by rw [honly]; exact hstate⟩
    show max 0 round ≤ r
    omega

/-- A full scan in round 1 and a refresh in round 2. -/
theorem AccountScanRun.tracks_two_scans :
    let first := oneAccountCall 10 1 (.ok ()) (oneAccount.account 1 "A")
    let second := oneAccountCall 20 2 (.ok ()) (oneAccount.account 2 "A")
    let m := (second.run some (first.run some (Mutex.new .new)).2.1).2.1
    Tracks oneAccount some 2 m.value ∧ m.value = ⟨2, 20, [("A", ⟨"A", [("k", "2")]⟩)]⟩ := by
  intro first second m
  have hnew : AccountScanRun oneAccount some (@AccountScanCall.Steady Unit ScannedAccount) 0
      (Mutex.new .new) := .new
  have hfirst := hnew.call (Nat.zero_le 1) first
    (oneAccountCall_served Nat.one_pos le_rfl ⟨1, le_rfl, le_rfl, rfl⟩ _)
    ⟨Nat.succ_pos 9, fun hkind => absurd hkind (by decide)⟩
  have hsecond := hfirst.call (Nat.le_succ 1) second
    (oneAccountCall_served Nat.two_pos le_rfl ⟨2, le_rfl, le_rfl, rfl⟩ _)
    ⟨Nat.succ_pos 19, fun _ _ answer hanswer => ⟨2, by decide, le_rfl, by
      have honly : answer = ("A", oneAccount.account 2 "A") := List.mem_singleton.mp hanswer
      rw [honly]⟩⟩
  exact ⟨AccountScanRun.tracks hsecond, rfl⟩

/-- Each of the two assumptions is needed. A full scan stamped by a clock that reads zero looks
like no scan, so the next refresh drops its entries, and a page failure leaves it with the old
watermark; and a lookup that answers from before the watermark puts an old state back. -/
theorem AccountScanRun.not_tracks :
    (¬ ∀ (S : StateHistory) (height : ℕ) (m : Mutex (AccountScanCache ScannedAccount)),
      AccountScanRun S some (fun (_ : AccountScanCall Unit) _ _ _ => True) height m →
        Tracks S some height m.value) ∧
    (¬ ∀ (S : StateHistory) (height : ℕ) (m : Mutex (AccountScanCache ScannedAccount)),
      AccountScanRun S some (@AccountScanCall.LooksForward Unit ScannedAccount) height m →
        Tracks S some height m.value) ∧
    (¬ ∀ (S : StateHistory) (height : ℕ) (m : Mutex (AccountScanCache ScannedAccount)),
      AccountScanRun S some (@AccountScanCall.ClockPositive Unit ScannedAccount) height m →
        Tracks S some height m.value) := by
  have hzero : ∃ m : Mutex (AccountScanCache ScannedAccount),
      AccountScanRun oneAccount some (@AccountScanCall.LooksForward Unit ScannedAccount) 1 m ∧
        ¬ Tracks oneAccount some 1 m.value := by
    have hnew : AccountScanRun oneAccount some (@AccountScanCall.LooksForward Unit ScannedAccount) 0
        (Mutex.new .new) := .new
    have hfirst := hnew.call (Nat.zero_le 1) (oneAccountCall 0 1 (.ok ()) (oneAccount.account 1 "A"))
      (oneAccountCall_served Nat.one_pos le_rfl ⟨1, le_rfl, le_rfl, rfl⟩ _)
      (fun hkind => absurd hkind (by decide))
    have hsecond := hfirst.call le_rfl 
      (oneAccountCall 0 1 (.error (.text "down")) (oneAccount.account 1 "A"))
      (oneAccountCall_served Nat.one_pos le_rfl ⟨1, le_rfl, le_rfl, rfl⟩ _)
      (fun hkind => absurd hkind (by decide))
    refine ⟨_, hsecond, fun htracks => ?_⟩
    have hlost := htracks.current Nat.one_pos "A" fun r hr hr' => absurd hr' (Nat.not_le.mpr hr)
    exact absurd hlost (by decide)
  have hback : ∃ m : Mutex (AccountScanCache ScannedAccount),
      AccountScanRun oneAccount some (@AccountScanCall.ClockPositive Unit ScannedAccount) 2 m ∧
        ¬ Tracks oneAccount some 2 m.value := by
    have hnew : AccountScanRun oneAccount some (@AccountScanCall.ClockPositive Unit ScannedAccount) 0
        (Mutex.new .new) := .new
    have hfirst := hnew.call (Nat.zero_le 2)
      (oneAccountCall 10 2 (.ok ()) (oneAccount.account 2 "A"))
      (oneAccountCall_served Nat.two_pos le_rfl ⟨2, le_rfl, le_rfl, rfl⟩ _) (Nat.succ_pos 9)
    have hsecond := hfirst.call le_rfl (oneAccountCall 20 1 (.ok ()) (oneAccount.account 1 "A"))
      (oneAccountCall_served Nat.one_pos (by decide) ⟨1, le_rfl, by decide, rfl⟩ _)
      (Nat.succ_pos 19)
    refine ⟨_, hsecond, fun htracks => ?_⟩
    have hold := htracks.current Nat.two_pos "A" fun r hr hr' => absurd hr' (Nat.not_le.mpr hr)
    exact absurd hold (by decide)
  obtain ⟨m, hrun, hnot⟩ := hzero
  obtain ⟨m', hrun', hnot'⟩ := hback
  exact ⟨fun h => hnot (h _ _ m (hrun.weaken fun _ _ _ _ => trivial)),
    fun h => hnot (h _ _ m hrun), fun h => hnot' (h _ _ m' hrun')⟩

end BlockchainOps.Algo
