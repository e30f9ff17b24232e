import BlockchainOps.Algo.Operations
import BlockchainOps.Algo.TxnScanTheorems

/-!
# What the note scanners find

Three loops read the pages of an indexer: the search for one transaction by its note, the search
for all of them, and the cached scan. The first two drop a row without a note when they read a
page, the third leaves that to its caller. On the same pages they agree: the second returns what
matches in the order of the pages (`matchingNotes`), the first its head, and a forced scan leaves
it in the cache (`note_scanners_agree`).
-/

namespace BlockchainOps.Algo

open Effect Proc Paging

/-! ## What there is to find -/

/-- A transaction that is confirmed and has a note that is accepted. -/
def matchingNote (accepts : Bytes → Bool) (txn : IndexerTransaction) : Option ConfirmedTxn :=
  match txn.confirmedRound, txn.note with
  | some confirmedRound, some note =>
    if 0 < confirmedRound ∧ accepts note = true then some { confirmedRound, note := some note }
    else none
  | _, _ => none

/-- Those on a page. -/
def pageNotes (accepts : Bytes → Bool) (page : SearchResponse IndexerTransaction) :
    List ConfirmedTxn :=
  page.items.filterMap (matchingNote accepts)

/-- Those on the pages, in order. -/
def matchingNotes (accepts : Bytes → Bool) (pages : List (SearchResponse IndexerTransaction)) :
    List ConfirmedTxn :=
  pages.flatMap (pageNotes accepts)

/-- The predicate as the caller of a scan applies it: to the note, if there is one. -/
def ingestMatching (accepts : Bytes → Bool) (txn : ScannedTxn) : Option ConfirmedTxn :=
  match txn.note with
  | some note =>
    if accepts note = true then some { confirmedRound := txn.confirmedRound, note := some note }
    else none
  | none => none

/-! ## One row -/

variable {accepts : Bytes → Bool}

/-- The round decides first, then the note. -/
theorem matchingNote_eq (txn : IndexerTransaction) :
    matchingNote accepts txn = (confirmedIn txn).bind fun round => txn.note.bind fun note =>
      if accepts note = true then some { confirmedRound := round, note := some note }
      else none := by
  unfold matchingNote confirmedIn
  rcases txn.confirmedRound with _ | round
  · rfl
  · by_cases hround : 0 < round
    · have hkept : (some round).filter (fun r => decide (0 < r)) = some round :=
        Option.filter_some_pos (decide_eq_true hround)
      rw [hkept]
      rcases txn.note with _ | note
      · rfl
      · simp [hround]
    · have hdropped : (some round).filter (fun r => decide (0 < r)) = none :=
        Option.filter_some_neg (by simpa using hround)
      rw [hdropped]
      rcases txn.note with _ | note
      · rfl
      · simp [hround]

/-- What is kept of a row by a note search. -/
theorem confirmedNote_eq (txn : IndexerTransaction) :
    ((confirmedNote txn).filter fun candidate => accepts candidate.2).map
      (fun candidate =>
        ({ confirmedRound := candidate.1, note := some candidate.2 } : ConfirmedTxn))
        = matchingNote accepts txn := by
  rw [matchingNote_eq]
  unfold confirmedNote
  rcases confirmedIn txn with _ | round
  · rfl
  · rcases txn.note with _ | note
    · rfl
    · by_cases haccepts : accepts note = true
      · simp [haccepts]
      · simp [haccepts]

/-- What is kept of a row by a scan and its caller. -/
theorem scannedTxn_eq (txn : IndexerTransaction) :
    (scannedTxn txn).bind (ingestMatching accepts) = matchingNote accepts txn := by
  rw [matchingNote_eq]
  unfold scannedTxn
  rcases confirmedIn txn with _ | round
  · rfl
  · show ingestMatching accepts ⟨round, txn.sender, txn.note⟩ = _
    unfold ingestMatching
    rcases txn.note with _ | note
    · rfl
    · rfl

/-! ## One page -/

/-- The candidates of a page that are accepted. -/
theorem candidates_filter (page : SearchResponse IndexerTransaction) :
    ((page.items.filterMap confirmedNote).filter fun candidate => accepts candidate.2).map
      (fun candidate =>
        ({ confirmedRound := candidate.1, note := some candidate.2 } : ConfirmedTxn))
        = pageNotes accepts page := by
  unfold pageNotes
  rw [List.filter_filterMap, List.map_filterMap]
  congr 1
  funext txn
  exact confirmedNote_eq txn

/-- A page as a scan reads it. -/
def scanPage (page : SearchResponse IndexerTransaction) : TxnScanPage where
  txns := page.items.filterMap scannedTxn
  nextToken := nextPageToken page.nextToken
  currentRound := page.currentRound

theorem accepted_scanPages (pages : List (SearchResponse IndexerTransaction)) :
    accepted (ingestMatching accepts) (pages.map scanPage) = matchingNotes accepts pages := by
  unfold accepted matchingNotes
  rw [List.flatMap_map]
  congr 1
  funext page
  show (page.items.filterMap scannedTxn).filterMap (ingestMatching accepts) = _
  unfold pageNotes
  rw [List.filterMap_filterMap]
  congr 1
  funext txn
  exact scannedTxn_eq txn

/-! ## The three conversations -/

/-- The indexer a session talks to. -/
def Session.indexer (c : Session) : Except String Indexer :=
  c.env.newIndexer s!"{c.ops.config.indexerApiUrl}:{c.ops.config.indexerApiPort}"
    (c.ops.config.token.getD "")

/-- The address of a sender to restrict a search to. -/
def Session.senderAddress (c : Session) : Option String → Except String (Option Address)
  | some sender => (c.env.algonaut.parseAddress sender).map some
  | none => .ok none

/-- What a note search asks for. -/
def noteQuery (c : Session) (query : Bytes) (address : Option Address) (next : Option String) :
    TransactionQuery where
  next := next
  notePrefix := some (c.env.base64.encode query)
  minRound := none
  address := address
  addressRole := address.map fun _ => "sender"
  applicationId := none

/-- What a full scan asks for. -/
def scanQuery (filter : PreparedScanFilter) (next : Option String) : TransactionQuery where
  next := next
  notePrefix := filter.notePrefix
  minRound := none
  address := filter.address
  addressRole := filter.address.map fun _ => "sender"
  applicationId := filter.appId

/-- A conversation about these queries is served these pages; the last has no token, or an empty
one. -/
def Session.Served (c : Session) (client : Indexer) (query : Option String → TransactionQuery)
    (w : World) (pages : List (SearchResponse IndexerTransaction)) (w' : World) : Prop :=
  Serves (fun next => (searchForTransactions client (query next)).run c)
    (fun page => nextPageToken page.nextToken) none w pages w'

section Scanners

variable {c : Session} {client : Indexer} {query : Bytes} {sender : Option String}
  {address : Option Address} {pages : List (SearchResponse IndexerTransaction)} {s t : World}

/-- A page of a note search is read from the page the indexer serves. -/
theorem confirmedNotesPage_run (hsender : c.senderAddress sender = .ok address)
    {next : Option String} {page : SearchResponse IndexerTransaction}
    (h : (searchForTransactions client (noteQuery c query address next)).run c s
      = (.ok page, t)) :
    (confirmedNotesPage client (c.env.base64.encode query) sender next).run c s
      = (.ok (page.items.filterMap confirmedNote, nextPageToken page.nextToken), t) := by
  cases sender with
  | none =>
    have haddress : (none : Option Address) = address := Except.ok.inj hsender
    rw [← haddress] at h
    exact bind_of_ok h
  | some text =>
    have hmapped : (c.env.algonaut.parseAddress text).map some = .ok address := hsender
    rcases hparse : c.env.algonaut.parseAddress text with e | a
    · rw [hparse] at hmapped
      exact absurd hmapped (by simp [Except.map])
    · rw [hparse] at hmapped
      have haddress : some a = address := Except.ok.inj hmapped
      rw [← haddress] at h
      have hparsed : (parseAddress text).run c s = (.ok a, s) := by
        show (orBail "invalid address" (c.env.algonaut.parseAddress text)).run c s = _
        rw [hparse]
        rfl
      unfold confirmedNotesPage
      rw [Confined.run_bind, bind_of_ok hparsed]
      exact bind_of_ok h

theorem indexerClient_run (h : c.indexer = .ok client) (s : World) :
    indexerClient.run c s = (.ok client, s) := by
  show (orBail "failed to construct Indexer client" c.indexer).run c s = _
  rw [h]
  rfl

/-- The first match of the pages is returned. -/
theorem findConfirmedNoteMatching_served (hclient : c.indexer = .ok client)
    (hsender : c.senderAddress sender = .ok address)
    (hserved : c.Served client (noteQuery c query address) s pages t)
    (hfuel : pages.length ≤ c.env.fuel) :
    ∃ u, (findConfirmedNoteMatching query sender accepts).run c s
      = (.ok (matchingNotes accepts pages).head?, u) := by
  unfold matchingNotes
  rw [List.head?_flatMap]
  unfold findConfirmedNoteMatching
  rw [Confined.run_bind, bind_of_ok (indexerClient_run hclient s)]
  apply loop_find_of_serves _ hserved hfuel
  intro next w page w' hpage
  have hread := confirmedNotesPage_run hsender hpage
  have hfirst : (pageNotes accepts page).head?
      = ((page.items.filterMap confirmedNote).find? fun candidate => accepts candidate.2).map
        fun candidate => { confirmedRound := candidate.1, note := some candidate.2 } := by
    rw [← candidates_filter, List.head?_map, List.head?_filter]
  rw [Confined.run_bind, bind_of_ok hread]
  rcases hfind : (page.items.filterMap confirmedNote).find? fun candidate => accepts candidate.2
    with _ | candidate
  · rw [hfind] at hfirst
    have hafter : afterFind (fun page : SearchResponse IndexerTransaction =>
        nextPageToken page.nextToken) (fun page => (pageNotes accepts page).head?) page
          = (nextPageToken page.nextToken).elim (.inr none) fun token => .inl (some token) :=
      afterFind_of_none hfirst
    rw [hafter]
    simp only [hfind]
    cases nextPageToken page.nextToken <;> rfl
  · rw [hfind] at hfirst
    have hafter : afterFind (fun page : SearchResponse IndexerTransaction =>
        nextPageToken page.nextToken) (fun page => (pageNotes accepts page).head?) page
          = .inr (some { confirmedRound := candidate.1, note := some candidate.2 }) :=
      afterFind_of_some hfirst
    rw [hafter]
    simp only [hfind]
    rfl

theorem foldl_pageNotes (found : List ConfirmedTxn) :
    pages.foldl (fun found page => found ++ pageNotes accepts page) found
      = found ++ matchingNotes accepts pages := by
  unfold matchingNotes
  induction pages generalizing found with
  | nil => simp
  | cons page pages ih => rw [List.foldl_cons, ih, List.flatMap_cons, List.append_assoc]

/-- Every match of the pages is returned. -/
theorem collectConfirmedNotesMatching_served (hclient : c.indexer = .ok client)
    (hsender : c.senderAddress sender = .ok address)
    (hserved : c.Served client (noteQuery c query address) s pages t)
    (hfuel : pages.length ≤ c.env.fuel) :
    (collectConfirmedNotesMatching query sender accepts).run c s
      = (.ok (matchingNotes accepts pages), t) := by
  have hfold : pages.foldl (fun found page => found ++ pageNotes accepts page) [] = _ :=
    foldl_pageNotes []
  rw [List.nil_append] at hfold
  rw [← hfold]
  unfold collectConfirmedNotesMatching
  rw [Confined.run_bind, bind_of_ok (indexerClient_run hclient s)]
  apply loop_fold_of_serves _ hserved hfuel
  intro next found w page w' hpage
  have hread := confirmedNotesPage_run hsender hpage
  show ((confirmedNotesPage client (c.env.base64.encode query) sender next).run c >>= fun _ => _) w
    = _
  rw [bind_of_ok hread, afterFold_eq]
  dsimp only
  rw [← candidates_filter]
  cases nextPageToken page.nextToken <;> rfl

/-- A forced scan leaves the matches of the pages in the cache, whatever was in it. -/
theorem forcedScan_served {filter : PreparedScanFilter} {lifetime : Option ℕ} {now : ℕ}
    (cache : TxnScanCache ConfirmedTxn)
    (hserved : c.Served client (scanQuery filter) s pages t) (hfuel : pages.length ≤ c.env.fuel) :
    fetchTransactionsCachedWith c.env.fuel .forceFull lifetime now (ingestMatching accepts)
        (fun minRound next => (fetchScanPage client filter minRound next).run c) (.new cache, s)
      = (.ok (), .new
          { lastRound := topRound 0 (pages.map scanPage)
            lastUpdated := now
            entries := matchingNotes accepts pages }, t) := by
  have hpages : Serves (fun next => (fetchScanPage client filter none next).run c)
      (·.nextToken) none s (pages.map scanPage) t := by
    apply Serves.map _ _ hserved
    · intro next w page w' hpage
      exact bind_of_ok hpage
    · intro page
      rfl
  have hlength : (pages.map scanPage).length ≤ c.env.fuel := by
    rw [List.length_map]
    exact hfuel
  -- the scan starts from an empty cache
  have hforced : txnFloor .forceFull lifetime now cache = .ok (some none) := rfl
  have hbody : txnScanBody c.env.fuel .forceFull lifetime now (ingestMatching accepts)
      (fun minRound next => (fetchScanPage client filter minRound next).run c) (cache, s) = _ :=
    txnScanBody_of_scan hforced s
  unfold txnWalk at hbody
  rw [walk_of_serves hpages hlength] at hbody
  dsimp only at hbody
  rw [if_pos rfl, accepted_scanPages] at hbody
  exact withLock_of_ok hbody

/-! ## The three scanners -/

/-- Whatever pages the indexer serves to the three scanners and whatever predicate they narrow
them with: the collecting search returns the confirmed transactions with a matching note in the
order of the pages, the other search returns the head of that list, and a forced scan leaves that
list in the cache. -/
theorem note_scanners_agree (c : Session) (client : Indexer) (query : Bytes)
    (sender : Option String) (accepts : Bytes → Bool) (address : Option Address)
    (filter : PreparedScanFilter) (lifetime : Option ℕ) (now : ℕ)
    (prior : TxnScanCache ConfirmedTxn) (pages : List (SearchResponse IndexerTransaction))
    (w₁ w₂ w₃ t₁ t₂ t₃ : World) (hclient : c.indexer = .ok client)
    (hsender : c.senderAddress sender = .ok address)
    (hfind : c.Served client (noteQuery c query address) w₁ pages t₁)
    (hcollect : c.Served client (noteQuery c query address) w₂ pages t₂)
    (hscan : c.Served client (scanQuery filter) w₃ pages t₃) (hfuel : pages.length ≤ c.env.fuel) :
    let found := matchingNotes accepts pages
    let find := (findConfirmedNoteMatching query sender accepts).run c w₁
    let collect := (collectConfirmedNotesMatching query sender accepts).run c w₂
    let forced := fetchTransactionsCachedWith c.env.fuel .forceFull lifetime now
      (ingestMatching accepts)
      (fun minRound next => (fetchScanPage client filter minRound next).run c) (.new prior, w₃)
    collect.1 = .ok found ∧
      find.1 = .ok found.head? ∧ (find.1 = .ok none ↔ found = []) ∧
      forced.1 = .ok () ∧ forced.2.1.value.entries = found := by
  obtain ⟨u, hfound⟩ : ∃ u, (findConfirmedNoteMatching query sender accepts).run c w₁
      = (.ok (matchingNotes accepts pages).head?, u) :=
    findConfirmedNoteMatching_served hclient hsender hfind hfuel
  have hcollected : (collectConfirmedNotesMatching query sender accepts).run c w₂
      = (.ok (matchingNotes accepts pages), t₂) :=
    collectConfirmedNotesMatching_served hclient hsender hcollect hfuel
  have hforced : fetchTransactionsCachedWith c.env.fuel .forceFull lifetime now
      (ingestMatching accepts)
      (fun minRound next => (fetchScanPage client filter minRound next).run c) (.new prior, w₃)
        = _ :=
    forcedScan_served prior hscan hfuel
  intro found find collect forced
  have hfirst : find.1 = .ok found.head? := congrArg Prod.fst hfound
  have hleft : forced.2.1 = .new
      { lastRound := topRound 0 (pages.map scanPage), lastUpdated := now, entries := found } :=
    congrArg (·.2.1) hforced
  refine ⟨congrArg Prod.fst hcollected, hfirst, ?_, congrArg Prod.fst hforced, ?_⟩
  · rw [hfirst]
    simp only [Outcome.ok.injEq, List.head?_eq_none_iff]
  · rw [hleft]
    rfl

end Scanners

/-! ## An indexer with three pages -/

namespace LocalNode

/-- A row: the round, if it is confirmed, and the note. -/
def row (confirmedRound : Option ℕ) (note : Option Bytes) : IndexerTransaction :=
  { confirmedRound, sender := "A", note, applicationTransaction := none, innerTxns := none }

/-- A page with nothing to find, an empty page, and a page whose token is empty. -/
def notePages : List (SearchResponse IndexerTransaction) :=
  [{ items := [row none (some [1, 2]), row (some 0) (some [1, 2]), row (some 4) none,
        row (some 5) (some [2])]
     nextToken := some "a"
     currentRound := 9 },
    { items := [], nextToken := some "b", currentRound := 9 },
    { items := [row (some 6) (some [1, 2]), row (some 7) (some [1])]
      nextToken := some ""
      currentRound := 9 }]

/-- An indexer that serves them. -/
def noteIndexer : Indexer where
  searchForTransactions := fun query _ =>
    match notePages[if query.next = none then 0 else if query.next = some "a" then 1 else 2]? with
    | some page => .done 0 (.ok page)
    | none => .never
  searchForAccounts := fun _ _ => .never
  lookupAccountById := fun _ _ _ => .never

/-- A client of it. -/
def searcher : Session :=
  { session silent with
    env := { (session silent).env with newIndexer := fun _ _ => .ok noteIndexer, fuel := 10 } }

end LocalNode

open LocalNode in
/-- The notes that start with one byte, of three pages. -/
theorem note_scanners_agree_three_pages :
    let found : List ConfirmedTxn := [⟨6, some [1, 2]⟩, ⟨7, some [1]⟩]
    let find := (findConfirmedNoteMatching [1] none (List.isPrefixOf [1])).run searcher (world 9)
    let forced := fetchTransactionsCachedWith 10 .forceFull none 50
      (ingestMatching (List.isPrefixOf [1]))
      (fun minRound next => (fetchScanPage noteIndexer ⟨none, none, some 5⟩ minRound next).run
        searcher) (.new ⟨3, 20, [⟨2, some [1]⟩]⟩, world 9)
    find.1 = .ok (some ⟨6, some [1, 2]⟩) ∧ forced.2.1.value.entries = found := by
  have hfind : ∃ t, searcher.Served noteIndexer (noteQuery searcher [1] none) (world 9) notePages
      t :=
    ⟨_, .more rfl rfl (.more rfl rfl (.last rfl rfl))⟩
  have hscan : ∃ t, searcher.Served noteIndexer (scanQuery ⟨none, none, some 5⟩) (world 9)
      notePages t :=
    ⟨_, .more rfl rfl (.more rfl rfl (.last rfl rfl))⟩
  obtain ⟨t, hfind⟩ := hfind
  obtain ⟨u, hscan⟩ := hscan
  have hagree := note_scanners_agree searcher noteIndexer [1] none (List.isPrefixOf [1]) none
    ⟨none, none, some 5⟩ none 50 ⟨3, 20, [⟨2, some [1]⟩]⟩ notePages (world 9) (world 9) (world 9)
    t t u rfl rfl hfind hfind hscan (by decide)
  exact ⟨hagree.2.1, hagree.2.2.2.2⟩

end BlockchainOps.Algo
