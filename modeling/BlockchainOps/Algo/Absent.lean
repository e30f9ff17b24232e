import BlockchainOps.Algo.Operations
import BlockchainOps.Algo.Unreachable

/-!
# Reads that may find nothing

Five reads of algod answer that something is absent where their call fails, unless the failure is
recognized as one to pass on: four of them pass on an unreachable host, `isAccountOptedInToAsset`
nothing. So absence says that the node answered only if the last attempt was answered or its
failure is passed on (`Reader.honest_iff`). A refusal of the client's own limits never is.
-/

namespace BlockchainOps.Algo

open Effect Proc

variable {α β γ : Type} {c : Session} {s : World}

/-! ## The readers -/

/-- A read of algod that may find nothing. -/
inductive Reader : Type → Type
  | confirmedTransaction (txid : String) : Reader (Option ConfirmedTxn)
  | localStateForAccount (appId : ℕ) (accountAddress : String) :
      Reader (Option (List (String × String)))
  | globalState (maybeAppId : Option ℕ) : Reader (Option (List (ℕ × List (String × String))))
  | appGlobalBytes (appId : ℕ) (key : String) : Reader (Option Bytes)
  | isAccountOptedInToAsset (accountAddress : String) (assetId : ℕ) : Reader Bool

namespace Reader

def program : Reader α → Client α
  | confirmedTransaction txid => Algo.confirmedTransaction txid
  | localStateForAccount appId account => Algo.localStateForAccount appId account
  | globalState maybeAppId => Algo.globalState maybeAppId
  | appGlobalBytes appId key => Algo.appGlobalBytes appId key
  | isAccountOptedInToAsset account assetId => Algo.isAccountOptedInToAsset account assetId

/-- The answer that there is nothing: `None`, or `false`. -/
def absent : Reader α → α
  | confirmedTransaction _ => none
  | localStateForAccount _ _ => none
  | globalState _ => none
  | appGlobalBytes _ _ => none
  | isAccountOptedInToAsset _ _ => false

/-- Whether an attempt without a response is one whose error is passed on. -/
def passesOn : Reader α → Event → Bool
  | isAccountOptedInToAsset _ _, _ => false
  | _, event => event.unreachable

end Reader

/-- Absence is reported only if the last attempt was answered, and without an answer the run does
not return a value. -/
structure Honest (absent : α) (events : List Event) (o : Outcome Error α) : Prop where
  absent : o = .ok absent → ∃ last, events.getLast? = some last ∧ last.served = true
  unserved : ∀ last, events.getLast? = some last → last.served = false → ∀ a, o ≠ .ok a

/-! ## How a reader ends -/

/-- How a run of a reader ends: with a value, its last attempt was answered or its failure is read
as absence; with an error, its failure is passed on. -/
def ReaderEnds (c : Session) (passes : Event → Bool) (events : List Event) :
    Outcome Error α → Prop
  | .ok _ => ∃ last, events.getLast? = some last ∧
    (last.served = true ∨ CallKind.algod.report c last ≠ none ∧ passes last = false)
  | .err _ => ∀ last, events.getLast? = some last → last.served = true ∨ passes last = true
  | .stop _ => ∀ last, events.getLast? = some last →
    last.served = true ∨ CallKind.algod.report c last = none

/-- Every run of the program ends so. -/
def Reads (passes : Event → Bool) (x : Client α) : Prop :=
  ∀ c s, ∃ events, (x.run c s).2.log = s.log ++ events ∧
    ReaderEnds c passes events (x.run c s).1

variable {passes : Event → Bool}

/-- What comes before the call makes no attempt. -/
theorem Reads.after_local {x : Client β} {g : β → Client α} (hx : Local x)
    (hg : ∀ b, Reads passes (g b)) : Reads passes (x >>= g) := by
  intro c s
  have hends := hx c s.log s rfl
  show ∃ events, ((x.run c >>= fun b => (g b).run c) s).2.log = _ ∧
    ReaderEnds c passes events ((x.run c >>= fun b => (g b).run c) s).1
  rw [bind_apply]
  rcases hrun : x.run c s with ⟨b | e | w, t⟩
  · rw [hrun] at hends
    have hlog : t.log = s.log := hends
    rw [← hlog]
    exact hg b c t
  · rw [hrun] at hends
    exact ⟨[], by simpa using hends.1, by simp [ReaderEnds]⟩
  · rw [hrun] at hends
    exact ⟨[], by simpa using hends.1, by simp [ReaderEnds]⟩

theorem Reads.guard {p : Prop} [Decidable p] {message : String} {rest : Unit → Client α}
    (hrest : Reads passes (rest ())) :
    Reads passes (if p then bail message >>= rest else rest ()) := by
  split_ifs
  · exact .after_local (Local.bail message) fun _ => hrest
  · exact hrest

/-- What follows a call that was answered makes no attempt, however it ends. -/
theorem Local.readerEnds {x : Client α} (hx : Local x) {t : World} {events : List Event}
    (hlog : t.log = s.log ++ events) {last : Event} (hlast : events.getLast? = some last)
    (hserved : last.served = true) :
    (x.run c t).2.log = s.log ++ events ∧ ReaderEnds c passes events (x.run c t).1 := by
  have hends := hx c t.log t rfl
  have hall : ∀ last', events.getLast? = some last' → last'.served = true := by
    intro last' h
    rw [hlast] at h
    rw [← Option.some.inj h]
    exact hserved
  rcases hrun : x.run c t with ⟨a | e | w, u⟩
  · rw [hrun] at hends
    exact ⟨Eq.trans hends hlog, last, hlast, Or.inl hserved⟩
  · rw [hrun] at hends
    exact ⟨hends.1.trans hlog, fun last' h => Or.inl (hall last' h)⟩
  · rw [hrun] at hends
    exact ⟨hends.1.trans hlog, fun last' h => Or.inl (hall last' h)⟩

/-- What a reader does with the error of its call. -/
inductive Handles (passes : Event → Bool) (last : Event) (x : Client α) : Prop
  | absent (a : α) (hx : x = pure a) (h : last.served = true ∨ passes last = false)
  | pass (e : Error) (hx : x = Confined.raise e) (h : last.served = true ∨ passes last = true)

/-- A call whose error is handled, and whose value needs no further attempt. -/
theorem Reads.call {call : NodeCall β} {g : Except Error β → Client α}
    (hreply : call.reply = replyOf) (hok : ∀ b, Local (g (.ok b)))
    (herr : ∀ c last e, CallKind.algod.Reports c last e → Handles passes last (g (.error e))) :
    Reads passes (resultOf (algodCall call) >>= g) := by
  intro c s
  have hends : Ends _ _ ((callWithRetry .algod call).run c s) := callWithRetry_triple hreply s s rfl
  show ∃ events,
    ((attempt ((callWithRetry .algod call).run c) >>= fun r => (g r).run c) s).2.log = _ ∧
    ReaderEnds c passes events
      ((attempt ((callWithRetry .algod call).run c) >>= fun r => (g r).run c) s).1
  rw [bind_apply]
  unfold attempt
  rcases hrun : (callWithRetry .algod call).run c s with ⟨b | e | w, t⟩
  · rw [hrun] at hends
    obtain ⟨events, hlog, request, hlast⟩ := hends
    exact ⟨events, (hok b).readerEnds hlog hlast rfl⟩
  · rw [hrun] at hends
    obtain ⟨events, hlog, last, hgave⟩ := hends
    refine ⟨events, ?_⟩
    dsimp only
    rcases herr c last e hgave.reports with ⟨a, hx, h⟩ | ⟨e', hx, h⟩
    · rw [hx]
      have hreport : CallKind.algod.report c last ≠ none := by
        rw [hgave.reports.report]
        simp
      exact ⟨hlog, last, hgave.ends, h.imp_right fun h => ⟨hreport, h⟩⟩
    · rw [hx]
      refine ⟨hlog, ?_⟩
      intro last' hlast'
      rw [hgave.ends] at hlast'
      rw [← Option.some.inj hlast']
      exact h
  · rw [hrun] at hends
    exact hends

/-- Three readers pass on an unreachable host, and read every other error as absence. -/
theorem Reads.orAbsent {operation : String} {call : NodeCall β} {g : Option β → Client α}
    {a : α} (hreply : call.reply = replyOf) (hsome : ∀ b, Local (g (some b)))
    (hnone : g none = pure a) :
    Reads Event.unreachable (orAbsent operation (algodCall call) >>= g) := by
  unfold Algo.orAbsent
  rw [Confined.bind_assoc]
  apply Reads.call hreply
  · exact hsome
  · intro c last e h
    have hmark : (Error.text e.display).isHostUnreachable = last.unreachable :=
      h.isHostUnreachable
    dsimp only
    split_ifs with hunreachable
    · exact .pass _ rfl (Or.inr (hmark ▸ hunreachable))
    · refine .absent a hnone (Or.inr ?_)
      rw [← hmark]
      simpa using hunreachable

/-- A quota rejection comes from the node. -/
theorem CallKind.Reports.served_of_isQuota {kind : CallKind} {last : Event} {e : Error}
    (h : kind.Reports c last e) (hquota : e.downcast.any AlgoError.isQuota = true) :
    last.served = true := by
  have hreport := h.report
  rcases last with a | text | ⟨request, _ | node | limit | _ | _⟩
  case refused =>
    have hnot := (h.refusal a rfl).not_quota
    rw [← Option.some.inj hreport] at hquota
    have ha : a.isQuota = true := hquota
    rw [hnot] at ha
    exact absurd ha (by simp)
  case exchange.ok => exact absurd hreport (by simp [CallKind.report])
  case exchange.failed =>
    show decide (node.failure ≠ .transport) = true
    cases hfailure : node.failure with
    | http status => rfl
    | undecoded => rfl
    | transport =>
      -- without a response the error is a text
      rw [← Option.some.inj hreport] at hquota
      unfold giveUp isRetryableFor NodeError.httpStatus at hquota
      rw [hfailure] at hquota
      exact absurd hquota (by simp [Error.downcast])
  case exchange.unsettled => exact absurd hreport (by simp [CallKind.report])
  case exchange.panicked =>
    unfold CallKind.report at hreport
    dsimp only at hreport
    split_ifs at hreport
    rw [← Option.some.inj hreport] at hquota
    exact absurd hquota (by simp [Error.downcast])
  all_goals
    rw [← Option.some.inj hreport] at hquota
    exact absurd hquota (by simp [Error.downcast])

/-! ## The five readers -/

theorem confirmedTransaction_reads (txid : String) :
    Reads Event.unreachable (confirmedTransaction txid) := by
  unfold confirmedTransaction
  apply Reads.guard
  apply Reads.after_local algodClient_local
  intro client
  apply Reads.call rfl
  · intro response
    dsimp only
    cases response.txn with
    | none => exact .pure _
    | some txn =>
      apply (Local.orBail _ _).bind
      intro v
      apply (Local.read _).bind
      intro e
      exact .pure _
  · intro c last e h
    have hmark := h.isHostUnreachable
    dsimp only
    split_ifs with hunreachable hquota
    · exact .pass _ rfl (Or.inr (hmark ▸ hunreachable))
    · exact .pass _ rfl (Or.inl (h.served_of_isQuota hquota))
    · refine .absent none rfl (Or.inr ?_)
      rw [← hmark]
      simpa using hunreachable

theorem localStateForAccount_reads (appId : ℕ) (accountAddress : String) :
    Reads Event.unreachable (localStateForAccount appId accountAddress) := by
  apply Reads.after_local algodClient_local
  intro client
  apply Reads.after_local (parseAddress_local accountAddress)
  intro address
  apply Reads.orAbsent rfl
  · intro info
    apply (Local.orBail _ _).bind
    intro v
    apply (Local.read _).bind
    intro e
    exact .pure _
  · rfl

theorem globalState_reads (maybeAppId : Option ℕ) :
    Reads Event.unreachable (globalState maybeAppId) := by
  apply Reads.after_local algodClient_local
  intro client
  apply Reads.after_local requireAddress_local
  intro address
  apply Reads.orAbsent rfl
  · intro info
    apply (Local.orBail _ _).bind
    intro v
    apply (Local.read _).bind
    intro e
    exact .pure _
  · rfl

theorem appGlobalBytes_reads (appId : ℕ) (key : String) :
    Reads Event.unreachable (appGlobalBytes appId key) := by
  apply Reads.guard
  apply Reads.after_local algodClient_local
  intro client
  apply Reads.orAbsent rfl
  · intro appInfo
    apply (Local.orBail _ _).bind
    intro v
    apply (Local.read _).bind
    intro e
    dsimp only
    cases v.get "params" >>= Json.asObject with
    | none => exact .pure _
    | some params => exact .pure _
  · rfl

theorem isAccountOptedInToAsset_reads (accountAddress : String) (assetId : ℕ) :
    Reads (fun _ => false) (isAccountOptedInToAsset accountAddress assetId) := by
  apply Reads.guard
  apply Reads.after_local algodClient_local
  intro client
  apply Reads.after_local (parseAddress_local accountAddress)
  intro address
  apply Reads.call rfl
  · intro info
    exact (Local.orBail _ _).bind fun v => .pure _
  · intro c last e _
    exact .absent false rfl (Or.inr rfl)

theorem Reader.reads (r : Reader α) : Reads r.passesOn r.program := by
  cases r with
  | confirmedTransaction txid => exact confirmedTransaction_reads txid
  | localStateForAccount appId account => exact localStateForAccount_reads appId account
  | globalState maybeAppId => exact globalState_reads maybeAppId
  | appGlobalBytes appId key => exact appGlobalBytes_reads appId key
  | isAccountOptedInToAsset account assetId => exact isAccountOptedInToAsset_reads account assetId

/-! ## Honest readers -/

/-- A reader is honest about a run exactly when an attempt that ended its call without an answer
is one whose error it passes on. -/
theorem Reader.honest_iff (r : Reader α) (c : Session) (s : World) :
    Honest r.absent (attempts s (r.program.run c s).2) (r.program.run c s).1 ↔
      ∀ last, (attempts s (r.program.run c s).2).getLast? = some last → last.served = false →
        CallKind.algod.report c last ≠ none → r.passesOn last = true := by
  obtain ⟨events, hlog, hends⟩ := r.reads c s
  rw [attempts_of_log hlog]
  generalize (r.program.run c s).1 = o at hends ⊢
  constructor
  · intro hhonest last hlast hserved hreport
    cases o with
    | ok a => exact absurd rfl (hhonest.unserved last hlast hserved a)
    | err e =>
      rcases hends last hlast with h | h
      · exact absurd h (by simp [hserved])
      · exact h
    | stop w =>
      rcases hends last hlast with h | h
      · exact absurd h (by simp [hserved])
      · exact absurd h hreport
  · intro hpasses
    have hvalue : ∀ a, o = .ok a → ∃ last, events.getLast? = some last ∧ last.served = true := by
      intro a ha
      rw [ha] at hends
      obtain ⟨last, hlast, h⟩ := hends
      refine ⟨last, hlast, ?_⟩
      rcases h with hserved | ⟨hreport, hnot⟩
      · exact hserved
      · by_contra hserved
        have hpass := hpasses last hlast (by simpa using hserved) hreport
        rw [hnot] at hpass
        exact absurd hpass (by simp)
    constructor
    · exact hvalue r.absent
    · intro last hlast hserved a ha
      obtain ⟨last', hlast', hserved'⟩ := hvalue a ha
      rw [hlast] at hlast'
      rw [← Option.some.inj hlast', hserved] at hserved'
      exact absurd hserved' (by simp)

/-- With a budget of no requests, nobody is asked, and the account is said not to be opted in. -/
theorem Reader.optedIn_not_honest :
    ((Reader.isAccountOptedInToAsset "" 1).program.run (LocalNode.session LocalNode.silent)
        (LocalNode.world 0)).1 = .ok false ∧
    ((Reader.isAccountOptedInToAsset "" 1).program.run (LocalNode.session LocalNode.silent)
        (LocalNode.world 0)).2.sent = [] ∧
    ¬ Honest false
      (attempts (LocalNode.world 0) ((Reader.isAccountOptedInToAsset "" 1).program.run
        (LocalNode.session LocalNode.silent) (LocalNode.world 0)).2)
      ((Reader.isAccountOptedInToAsset "" 1).program.run (LocalNode.session LocalNode.silent)
        (LocalNode.world 0)).1 := by
  refine ⟨rfl, rfl, ?_⟩
  intro hhonest
  obtain ⟨last, hlast, hserved⟩ := hhonest.absent rfl
  have hrefused : last = .refused (.dailyBudgetExceeded 86400000000000 0) :=
    Option.some.inj (hlast.symm.trans rfl)
  rw [hrefused] at hserved
  exact absurd hserved (by decide)

end BlockchainOps.Algo
