import BlockchainOps.Algo.Operations
import BlockchainOps.Algo.Unreachable

/-!
# How the wrappers report a served failure

The wrappers of a call look for an unreachable host by the text of the error, which holds the
message that the node served. `Faithful` says what they are to report; they do so unless that
message has a mark in it (`Wrapper.faithful_iff`).
-/

namespace BlockchainOps.Algo

open Effect Proc

variable {α : Type} {events : List Event}

/-! ## What is to be reported -/

/-- The error for an HTTP response with this status: a transient failure if the status is to be
retried and the retries are exhausted, and otherwise an HTTP error with the status. -/
structure ReportsStatus (kind : CallKind) (events : List Event) (node : NodeError) (status : ℕ)
    (a : AlgoError) : Prop where
  transient : isRetryableFor kind node = true ∧ Exhausted kind events →
    a.kind = .transientFailure
  http : ¬ (isRetryableFor kind node = true ∧ Exhausted kind events) →
    a.kind = .httpError ∧ a.status = some status
  forbidden : status = 403 → a.isForbidden = true

/-- A run does not return a value after an error status; an error that it returns names the status
of the last response, and an unreachable host only if there was no response. -/
def Faithful (kind : CallKind) (events : List Event) : Outcome Error α → Prop
  | .ok _ => ∀ request node status, events.getLast? = some (.exchange request (.failed node)) →
    node.httpStatus ≠ some status
  | .err e =>
    (∀ request node status, events.getLast? = some (.exchange request (.failed node)) →
      node.httpStatus = some status →
        ∃ a, e.downcast = some a ∧ ReportsStatus kind events node status a) ∧
    (∀ a, e.downcast = some a → a.kind = .hostUnreachable →
      ∀ last, events.getLast? = some last → last.served = false)
  | .stop _ => True

/-! ## The wrappers -/

/-- The operations that report unreachable hosts as such, and other errors as they are. -/
inductive Wrapper : Type → Type
  | round : Wrapper ℕ
  | suggestedParams : Wrapper AlgoSuggestedParams
  | accountFunds (accountAddress : String) : Wrapper AlgoAccountFunds
  | submitSigned (signedTxn : Bytes) : Wrapper String
  | findTransactionByNote (note : Bytes) : Wrapper (Option ConfirmedTxn)
  | findTransactionByNoteAndSender (note : Bytes) (sender : String) :
      Wrapper (Option ConfirmedTxn)
  | findTransactionByNotePrefix (pre : Bytes) : Wrapper (Option ConfirmedTxn)
  | findTransactionByNotePrefixAndSender (pre : Bytes) (sender : String) :
      Wrapper (Option ConfirmedTxn)
  | findTransactionsByNotePrefix (pre : Bytes) : Wrapper (List ConfirmedTxn)
  | findTransactionsByNotePrefixAndSender (pre : Bytes) (sender : String) :
      Wrapper (List ConfirmedTxn)
  | fetchScanPage (client : Indexer) (filter : PreparedScanFilter) (minRound : Option ℕ)
      (next : Option String) : Wrapper TxnScanPage
  | fetchAccountPage (client : Indexer) (appId : ℕ) (next : Option String) :
      Wrapper AccountScanPage
  | fetchChangedAddressesPage (client : Indexer) (appId minRound : ℕ) (next : Option String) :
      Wrapper ChangedAddressesPage

namespace Wrapper

def program : Wrapper α → Client α
  | round => Algo.round
  | suggestedParams => Algo.suggestedParams
  | accountFunds account => Algo.accountFunds account
  | submitSigned signedTxn => Algo.submitSigned signedTxn
  | findTransactionByNote note => Algo.findTransactionByNote note
  | findTransactionByNoteAndSender note sender => Algo.findTransactionByNoteAndSender note sender
  | findTransactionByNotePrefix pre => Algo.findTransactionByNotePrefix pre
  | findTransactionByNotePrefixAndSender pre sender =>
    Algo.findTransactionByNotePrefixAndSender pre sender
  | findTransactionsByNotePrefix pre => Algo.findTransactionsByNotePrefix pre
  | findTransactionsByNotePrefixAndSender pre sender =>
    Algo.findTransactionsByNotePrefixAndSender pre sender
  | fetchScanPage client filter minRound next => Algo.fetchScanPage client filter minRound next
  | fetchAccountPage client appId next => Algo.fetchAccountPage client appId next
  | fetchChangedAddressesPage client appId minRound next =>
    Algo.fetchChangedAddressesPage client appId minRound next

/-- The kind of the calls it makes. -/
def kind : Wrapper α → CallKind
  | round | suggestedParams | accountFunds _ | submitSigned _ => .algod
  | _ => .indexerRead

/-- The name under which it reports an unreachable host. -/
def operation : Wrapper α → String
  | round => "node_status"
  | suggestedParams => "suggested_params"
  | accountFunds _ => "account_funds"
  | submitSigned _ => "send_raw"
  | fetchAccountPage _ _ _ => "search_for_accounts"
  | _ => "search_for_transactions"

/-- What it makes of other errors. -/
def other : Wrapper α → Error → Error
  | round => Error.contextualize "failed to get node status"
  | suggestedParams => Error.contextualize "failed to fetch suggested params"
  | accountFunds account =>
    Error.contextualize s!"failed to fetch account information for {account}"
  | submitSigned _ => Error.contextualize "send_raw failed"
  | _ => id

end Wrapper

/-- What a wrapper makes of an error. -/
def classify (operation : String) (other : Error → Error) (e : Error) : Error :=
  if e.isHostUnreachable then .typed (.unreachable operation e.display) else other e

/-! ## What the wrappers answer -/

section Answered

variable {operation : String} {other : Error → Error}

theorem orUnreachable_answered (kind : CallKind) {call : NodeCall α}
    (hreply : call.reply = replyOf) :
    Answered kind (classify operation other)
      (orUnreachable operation other (callWithRetry kind call)) :=
  fun _ => mapErr_callWithRetry_answers hreply _

theorem searchForTransactions_answered (client : Indexer) (query : TransactionQuery) :
    Answered .indexerRead (classify "search_for_transactions" id)
      (searchForTransactions client query) :=
  orUnreachable_answered .indexerRead rfl

theorem confirmedNotesPage_answered (client : Indexer) (notePrefix : String)
    (sender next : Option String) :
    Answered .indexerRead (classify "search_for_transactions" id)
      (confirmedNotesPage client notePrefix sender next) := by
  unfold confirmedNotesPage
  cases sender with
  | none =>
    apply (searchForTransactions_answered client _).bind
    intro response
    exact .of_local (.pure _)
  | some sender =>
    apply (Answered.of_local (parseAddress_local sender)).bind
    intro address
    apply (searchForTransactions_answered client _).bind
    intro response
    exact .of_local (.pure _)

theorem findConfirmedNoteMatching_answered (query : Bytes) (sender : Option String)
    (accepts : Bytes → Bool) :
    Answered .indexerRead (classify "search_for_transactions" id)
      (findConfirmedNoteMatching query sender accepts) := by
  apply (Answered.of_local indexerClient_local).bind
  intro client
  apply (Answered.of_local (Local.read _)).bind
  intro e
  apply Answered.loop
  intro next
  apply (confirmedNotesPage_answered client _ sender next).bind
  intro page
  rcases page with ⟨candidates, nextToken⟩
  dsimp only
  cases candidates.find? fun candidate => accepts candidate.2 with
  | some candidate => exact .of_local (.pure _)
  | none =>
    cases nextToken with
    | some token => exact .of_local (.pure _)
    | none => exact .of_local (.pure _)

theorem collectConfirmedNotesMatching_answered (query : Bytes) (sender : Option String)
    (accepts : Bytes → Bool) :
    Answered .indexerRead (classify "search_for_transactions" id)
      (collectConfirmedNotesMatching query sender accepts) := by
  apply (Answered.of_local indexerClient_local).bind
  intro client
  apply (Answered.of_local (Local.read _)).bind
  intro e
  apply Answered.loop
  intro state
  apply (confirmedNotesPage_answered client _ sender state.1).bind
  intro page
  rcases page with ⟨candidates, nextToken⟩
  dsimp only
  cases nextToken with
  | some token => exact .of_local (.pure _)
  | none => exact .of_local (.pure _)

theorem fetchAccountPage_answered (client : Indexer) (appId : ℕ) (next : Option String) :
    Answered .indexerRead (classify "search_for_accounts" id)
      (fetchAccountPage client appId next) := by
  apply (orUnreachable_answered .indexerRead rfl).bind
  intro response
  apply Answered.of_local
  apply (Local.read _).bind
  intro e
  refine (Local.forEach (fun acct => ?_) _).bind fun accounts => .pure _
  exact (Local.orBail _ _).bind fun v => .pure _

theorem Wrapper.answered (w : Wrapper α) :
    Answered w.kind (classify w.operation w.other) w.program := by
  cases w with
  | round =>
    apply (Answered.of_local algodClient_local).bind
    intro client
    apply (orUnreachable_answered .algod rfl).bind
    intro status
    exact .of_local (.pure _)
  | suggestedParams =>
    apply (Answered.of_local algodClient_local).bind
    intro client
    apply (orUnreachable_answered .algod rfl).bind
    intro params
    exact .of_local (.pure _)
  | accountFunds account =>
    apply (Answered.of_local algodClient_local).bind
    intro client
    apply (Answered.of_local (parseAddress_local account)).bind
    intro address
    apply (orUnreachable_answered .algod rfl).bind
    intro info
    exact .of_local (.pure _)
  | submitSigned signedTxn =>
    apply Answered.guard
    apply (Answered.of_local algodClient_local).bind
    intro client
    apply (orUnreachable_answered .algod rfl).bind
    intro response
    exact .of_local (.pure _)
  | findTransactionByNote note =>
    exact .guard (findConfirmedNoteMatching_answered note none _)
  | findTransactionByNoteAndSender note sender =>
    exact .guard (.guard (findConfirmedNoteMatching_answered note (some sender) _))
  | findTransactionByNotePrefix pre =>
    exact .guard (findConfirmedNoteMatching_answered pre none _)
  | findTransactionByNotePrefixAndSender pre sender =>
    exact .guard (.guard (findConfirmedNoteMatching_answered pre (some sender) _))
  | findTransactionsByNotePrefix pre =>
    exact .guard (collectConfirmedNotesMatching_answered pre none _)
  | findTransactionsByNotePrefixAndSender pre sender =>
    exact .guard (.guard (collectConfirmedNotesMatching_answered pre (some sender) _))
  | fetchScanPage client filter minRound next =>
    apply (searchForTransactions_answered client _).bind
    intro response
    exact .of_local (.pure _)
  | fetchAccountPage client appId next => exact fetchAccountPage_answered client appId next
  | fetchChangedAddressesPage client appId minRound next =>
    apply (searchForTransactions_answered client _).bind
    intro response
    exact .of_local (.pure _)

end Answered

/-! ## Faithful wrappers -/

/-- What a wrapper does to other errors: a typed one is kept, a text stays one. -/
structure KeepsTyped (other : Error → Error) : Prop where
  typed : ∀ a, other (.typed a) = .typed a
  text : ∀ msg, (other (.text msg)).downcast = none

theorem contextualize_keepsTyped (what : String) : KeepsTyped (Error.contextualize what) where
  typed _ := rfl
  text _ := rfl

theorem Wrapper.other_keepsTyped (w : Wrapper α) : KeepsTyped w.other := by
  have hid : KeepsTyped id := ⟨fun _ => rfl, fun _ => rfl⟩
  cases w
  case round => exact contextualize_keepsTyped _
  case suggestedParams => exact contextualize_keepsTyped _
  case accountFunds => exact contextualize_keepsTyped _
  case submitSigned => exact contextualize_keepsTyped _
  all_goals exact hid

/-- The error of a call that gives up after an error status. -/
theorem giveUp_reportsStatus {kind : CallKind} {node : NodeError} {status : ℕ}
    (hstatus : node.httpStatus = some status)
    (hexhausted : isRetryableFor kind node = true → Exhausted kind events) :
    ∃ a, giveUp kind maxRetries node = .typed a ∧ ReportsStatus kind events node status a ∧
      a.kind ≠ .hostUnreachable := by
  unfold giveUp
  by_cases hretryable : isRetryableFor kind node = true
  · have hcode : status ≠ 403 := by
      intro h
      rw [h] at hstatus
      unfold isRetryableFor at hretryable
      rw [hstatus] at hretryable
      cases kind <;> exact absurd hretryable (by decide)
    rw [if_pos ⟨le_refl _, hretryable⟩]
    refine ⟨_, rfl, ⟨fun _ => rfl, ?_, fun h => absurd h hcode⟩, by simp [AlgoError.transient]⟩
    intro hnot
    exact absurd ⟨hretryable, hexhausted hretryable⟩ hnot
  · rw [if_neg (fun h => hretryable h.2), hstatus]
    refine ⟨_, rfl, ⟨fun h => absurd h.1 hretryable, fun _ => ⟨rfl, rfl⟩, ?_⟩,
      by simp [AlgoError.http]⟩
    intro hcode
    rw [hcode]
    rfl

/-- The error of a call that gives up after a response without an error status. -/
theorem giveUp_text {kind : CallKind} {node : NodeError} (hstatus : node.httpStatus = none) :
    giveUp kind maxRetries node = .text node.text := by
  have hretryable : isRetryableFor kind node = false := by
    unfold isRetryableFor
    rw [hstatus]
  unfold giveUp
  rw [if_neg (by rw [hretryable]; simp), hstatus]

/-- A call that gives up after a response returns the error of that response. -/
theorem CallKind.Reports.of_served {c : Session} {kind : CallKind} {last : Event} {report : Error}
    (h : kind.Reports c last report) (hserved : last.served = true) :
    ∃ request node, last = .exchange request (.failed node) ∧
      report = giveUp kind maxRetries node := by
  have hreport := h.report
  rcases last with a | text | ⟨request, _ | node | limit | _ | _⟩
  case exchange.failed => exact ⟨request, node, rfl, (Option.some.inj hreport).symm⟩
  case exchange.ok => exact absurd hreport (by simp [CallKind.report])
  all_goals exact absurd hserved (by simp [Event.served, Reply.served])

section GaveUp

variable {c : Session} {kind : CallKind} {operation : String} {other : Error → Error}
  {last : Event} {report e : Error}

/-- After a response, a wrapper reports faithfully what it does not take for an unreachable
host. -/
theorem GaveUp.faithful_served_iff (h : GaveUp c kind (classify operation other) events last report e)
    (hother : KeepsTyped other) (hserved : last.served = true) :
    Faithful kind events (.err e : Outcome Error α) ↔ last.unreachable = false := by
  have he := h.error
  unfold classify at he
  rw [h.reports.isHostUnreachable] at he
  constructor
  · intro hfaithful
    by_contra hmark
    rw [if_pos (by simpa using hmark)] at he
    rw [he] at hfaithful
    have hunserved := hfaithful.2 _ rfl rfl last h.ends
    rw [hserved] at hunserved
    exact absurd hunserved (by simp)
  · intro hmark
    rw [hmark, if_neg (by simp)] at he
    obtain ⟨request, node, hlast, hreport⟩ := h.reports.of_served hserved
    have hends : events.getLast? = some (.exchange request (.failed node)) := by
      rw [h.ends, hlast]
    have hexhausted := h.exhausted
    rw [hlast] at hexhausted
    rcases hstatus : node.httpStatus with _ | status
    · rw [he, hreport, giveUp_text hstatus]
      constructor
      · intro request' node' status' hends' hstatus'
        rw [hends] at hends'
        cases hends'
        rw [hstatus] at hstatus'
        exact absurd hstatus' (by simp)
      · intro a ha
        rw [hother.text] at ha
        exact absurd ha (by simp)
    · obtain ⟨a, hgive, hreports, hkind⟩ := giveUp_reportsStatus hstatus hexhausted
      rw [he, hreport, hgive, hother.typed]
      constructor
      · intro request' node' status' hends' hstatus'
        rw [hends] at hends'
        cases hends'
        rw [hstatus] at hstatus'
        cases hstatus'
        exact ⟨a, rfl, hreports⟩
      · intro a' ha' hkind'
        cases ha'
        exact absurd hkind' hkind

/-- Without a response there is nothing to report falsely. -/
theorem GaveUp.faithful (h : GaveUp c kind (classify operation other) events last report e)
    (hserved : last.served = false) : Faithful kind events (.err e : Outcome Error α) := by
  constructor
  · intro request node status hends hstatus
    rw [h.ends] at hends
    cases hends
    unfold NodeError.httpStatus at hstatus
    cases hfailure : node.failure with
    | http code => simp [Event.served, Reply.served, hfailure] at hserved
    | undecoded => simp [hfailure] at hstatus
    | transport => simp [hfailure] at hstatus
  · intro a _ _ last' hends
    rw [h.ends] at hends
    rw [← Option.some.inj hends]
    exact hserved

end GaveUp

/-- Where the last attempt calls for no error, an error status was not served. -/
theorem not_failed_of_report_none {c : Session} {kind : CallKind}
    (h : events.getLast? >>= kind.report c = none) (request : Request) (node : NodeError) :
    events.getLast? ≠ some (.exchange request (.failed node)) := by
  intro hends
  rw [hends] at h
  exact absurd h (by simp [CallKind.report])

/-- Where the last attempt calls for no error, no mark was served. -/
theorem unreachable_of_report_none {c : Session} {kind : CallKind}
    (h : events.getLast? >>= kind.report c = none) {last : Event}
    (hends : events.getLast? = some last) (hserved : last.served = true) :
    last.unreachable = false := by
  rcases last with a | text | ⟨request, _ | node | limit | _ | _⟩
  case exchange.ok => rfl
  case exchange.failed => exact absurd hends (not_failed_of_report_none h request node)
  all_goals exact absurd hserved (by simp [Event.served, Reply.served])

/-- A wrapper reports a run faithfully exactly when the text of the last response, in a run that
returns, has no mark of an unreachable host in it. -/
theorem Wrapper.faithful_iff (w : Wrapper α) (c : Session) (s : World) :
    Faithful w.kind (attempts s (w.program.run c s).2) (w.program.run c s).1 ↔
      ((∀ why, (w.program.run c s).1 ≠ .stop why) →
        ∀ last, (attempts s (w.program.run c s).2).getLast? = some last →
          last.served = true → last.unreachable = false) := by
  obtain ⟨events, hlog, hends⟩ := w.answered c s
  rw [attempts_of_log hlog]
  rcases hrun : (w.program.run c s).1 with a | e | why
  · rw [hrun] at hends
    constructor
    · intro _ _ last hlast hserved
      exact unreachable_of_report_none hends hlast hserved
    · intro _ request node status hlast
      exact absurd hlast (not_failed_of_report_none hends request node)
  · rw [hrun] at hends
    rcases hends with ⟨last, report, hgave⟩ | ⟨hnone, msg, rfl⟩
    · rcases hserved : last.served with _ | _
      · have hfaithful : Faithful w.kind events (.err e : Outcome Error α) := hgave.faithful hserved
        simp [hfaithful, hgave.ends, hserved]
      · rw [hgave.faithful_served_iff w.other_keepsTyped hserved]
        simp [hgave.ends, hserved]
    · constructor
      · intro _ _ last hlast hserved
        exact unreachable_of_report_none hnone hlast hserved
      · intro _
        constructor
        · intro request node status hlast
          exact absurd hlast (not_failed_of_report_none hnone request node)
        · intro a ha
          exact absurd ha (by simp [Error.downcast])
  · constructor
    · intro _ hreturns
      exact absurd rfl (hreturns why)
    · intro _
      trivial

namespace LocalNode

/-- A response with status 403, whose body tells of a timeout upstream. -/
def forbidden : NodeError := ⟨.http 403, "403: quota exceeded, timeout in effect"⟩

/-- A node that answers a status request with it. -/
def forbidding : Algod := { silent with status := fun _ => .done 0 (.error forbidden) }

end LocalNode

/-- The quota rejection is served, and reported as an unreachable host. -/
theorem Wrapper.round_not_faithful :
    attempts (LocalNode.world 1) (Wrapper.round.program.run
        (LocalNode.session LocalNode.forbidding) (LocalNode.world 1)).2
      = [.exchange .status (.failed LocalNode.forbidden)] ∧
    ¬ Faithful Wrapper.round.kind
      (attempts (LocalNode.world 1) (Wrapper.round.program.run
        (LocalNode.session LocalNode.forbidding) (LocalNode.world 1)).2)
      (Wrapper.round.program.run (LocalNode.session LocalNode.forbidding)
        (LocalNode.world 1)).1 := by
  have hattempts : attempts (LocalNode.world 1) (Wrapper.round.program.run
      (LocalNode.session LocalNode.forbidding) (LocalNode.world 1)).2
        = [.exchange .status (.failed LocalNode.forbidden)] := rfl
  have hmark : (giveUp .algod 0 LocalNode.forbidden).isHostUnreachable = true := by
    rw [giveUp_isHostUnreachable, isHostUnreachable_iff]
    exact ⟨"timeout".toList, by decide, by decide⟩
  have hrun : (Wrapper.round.program.run (LocalNode.session LocalNode.forbidding)
      (LocalNode.world 1)).1 = .err (classify "node_status"
        (Error.contextualize "failed to get node status") (giveUp .algod 0 LocalNode.forbidden)) :=
    rfl
  refine ⟨hattempts, ?_⟩
  rw [hattempts, hrun]
  unfold classify
  rw [if_pos hmark]
  intro hfaithful
  have hunserved := hfaithful.2 _ rfl rfl _ rfl
  exact absurd hunserved (by decide)

end BlockchainOps.Algo
