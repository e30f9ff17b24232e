import BlockchainOps.Algo.Reads

/-!
# Searching the indexer by note

The indexer searches transactions by a prefix of their notes, in pages. The scanners walk the pages
and narrow the confirmed transactions with a predicate of their own: `findConfirmedNoteMatching`
stops at the first that it accepts, `collectConfirmedNotesMatching` returns them all.
-/

namespace BlockchainOps.Algo

open Effect

variable {α : Type}

/-- A token for the next page; an empty one ends the results. -/
def nextPageToken (token : Option String) : Option String := token.filter fun t => !t.isEmpty

/-- A round that a transaction was confirmed in. -/
def confirmedIn (txn : IndexerTransaction) : Option ℕ := txn.confirmedRound.filter (0 < ·)

/-- The round and the note of a confirmed transaction with a note. -/
def confirmedNote (txn : IndexerTransaction) : Option (ℕ × Bytes) := do
  let confirmedRound ← confirmedIn txn
  let note ← txn.note
  pure (confirmedRound, note)

/-- A search of the indexer for transactions. -/
def searchForTransactions (client : Indexer) (query : TransactionQuery) :
    Client (SearchResponse IndexerTransaction) :=
  orUnreachable "search_for_transactions" id (indexerCall (client.searchForTransactionsCall query))

/-- One page of a search by note: its candidates and the token of the next page. -/
def confirmedNotesPage (client : Indexer) (notePrefix : String) (sender next : Option String) :
    Client (List (ℕ × Bytes) × Option String) := do
  let address ← match sender with
    | some sender => do pure (some (← parseAddress sender))
    | none => pure none
  let response ← searchForTransactions client
    { next
      notePrefix := some notePrefix
      minRound := none
      address
      addressRole := sender.map fun _ => "sender"
      applicationId := none }
  pure (response.items.filterMap confirmedNote, nextPageToken response.nextToken)

/-- The first confirmed transaction whose note is accepted. -/
def findConfirmedNoteMatching (query : Bytes) (sender : Option String) (accepts : Bytes → Bool) :
    Client (Option ConfirmedTxn) := do
  let client ← indexerClient
  let notePrefix := (← env).base64.encode query
  Confined.loop (fun next : Option String => do
    let (candidates, nextToken) ← confirmedNotesPage client notePrefix sender next
    match candidates.find? fun candidate => accepts candidate.2 with
    | some (confirmedRound, note) => pure (.inr (some { confirmedRound, note := some note }))
    | none =>
      match nextToken with
      | some token => pure (.inl (some token))
      | none => pure (.inr none)) (fun c => c.env.fuel) none

/-- Every confirmed transaction whose note is accepted, in the indexer's order. -/
def collectConfirmedNotesMatching (query : Bytes) (sender : Option String)
    (accepts : Bytes → Bool) : Client (List ConfirmedTxn) := do
  let client ← indexerClient
  let notePrefix := (← env).base64.encode query
  Confined.loop (fun (next, found) => do
    let (candidates, nextToken) ← confirmedNotesPage client notePrefix sender next
    let found := found ++ (candidates.filter fun candidate => accepts candidate.2).map
      fun (confirmedRound, note) => { confirmedRound, note := some note }
    match nextToken with
    | some token => pure (.inl (some token, found))
    | none => pure (.inr found)) (fun c => c.env.fuel) (none, [])

/-! ## The searches -/

def findTransactionByNote (note : Bytes) : Client (Option ConfirmedTxn) := do
  if note.isEmpty then bail "note must not be empty"
  findConfirmedNoteMatching note none (· = note)

def findTransactionByNoteAndSender (note : Bytes) (sender : String) :
    Client (Option ConfirmedTxn) := do
  if note.isEmpty then bail "note must not be empty"
  if sender.isEmpty then bail "sender must not be empty"
  findConfirmedNoteMatching note (some sender) (· = note)

def findTransactionByNotePrefix (pre : Bytes) : Client (Option ConfirmedTxn) := do
  if pre.isEmpty then bail "prefix must not be empty"
  findConfirmedNoteMatching pre none pre.isPrefixOf

def findTransactionByNotePrefixAndSender (pre : Bytes) (sender : String) :
    Client (Option ConfirmedTxn) := do
  if pre.isEmpty then bail "prefix must not be empty"
  if sender.isEmpty then bail "sender must not be empty"
  findConfirmedNoteMatching pre (some sender) pre.isPrefixOf

def findTransactionsByNotePrefix (pre : Bytes) : Client (List ConfirmedTxn) := do
  if pre.isEmpty then bail "prefix must not be empty"
  collectConfirmedNotesMatching pre none pre.isPrefixOf

def findTransactionsByNotePrefixAndSender (pre : Bytes) (sender : String) :
    Client (List ConfirmedTxn) := do
  if pre.isEmpty then bail "prefix must not be empty"
  if sender.isEmpty then bail "sender must not be empty"
  collectConfirmedNotesMatching pre (some sender) pre.isPrefixOf

end BlockchainOps.Algo
