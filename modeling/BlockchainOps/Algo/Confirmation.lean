import Mathlib.Order.Monotone.Basic
import BlockchainOps.Algo.Exchanges
import BlockchainOps.Algo.Operations

/-!
# Waiting for a confirmation

`waitForConfirmation` reads the transaction, then waits for a round, for a number of times. A wait
for the round `r` ends when the node is past `r`, so each read after a wait sees one round more than
the one before; only the first read is not preceded by a wait, and the last wait is not followed by
a read. `NodeRun` says what a node answers while its last round grows, and
`waitForConfirmation_sees_iff` when a confirmation inside the window is seen.
-/

namespace BlockchainOps.Algo

open Effect Proc

variable {c : Session} {client : Algod} {txId : String} {s t : World}

/-! ## Nodes -/

/-- A node whose last round grows, and where the transaction is confirmed in some round, or not at
all. -/
structure NodeRun (client : Algod) (txId : String) where
  /-- The last round at each moment. -/
  lastRound : ℕ → ℕ
  confirmedIn : Option ℕ
  mono : Monotone lastRound
  positive : ∀ r, confirmedIn = some r → 0 < r
  status : ∀ m after status, client.status m = .done after (.ok status) →
    status.lastRound = lastRound m
  /-- The node answers once its last round is past the one that is waited for. -/
  statusAfterBlock : ∀ r m after, client.statusAfterBlock r m = .done after (.ok ()) →
    r < lastRound (m + 1)
  confirmed : ∀ m after p, client.pendingTransaction txId m = .done after (.ok p) →
    ∀ r, confirmedIn = some r → r ≤ lastRound m → p.confirmedRound = some r
  unconfirmed : ∀ m after p, client.pendingTransaction txId m = .done after (.ok p) →
    (∀ r, confirmedIn = some r → lastRound m < r) → p.confirmedRound.all (· = 0) = true

/-- A read reports that the transaction is confirmed. -/
def PendingTransaction.isConfirmed (p : PendingTransaction) : Bool := p.confirmedRound.any (0 < ·)

/-- What a read reports is what the node has reached. -/
theorem NodeRun.isConfirmed_iff (node : NodeRun client txId) {m after : ℕ} {p : PendingTransaction}
    (h : client.pendingTransaction txId m = .done after (.ok p)) :
    p.isConfirmed = true ↔ ∃ r, node.confirmedIn = some r ∧ r ≤ node.lastRound m := by
  unfold PendingTransaction.isConfirmed
  constructor
  · intro hreports
    by_contra hnone
    have hzero : p.confirmedRound.all (· = 0) = true := by
      apply node.unconfirmed m after p h
      intro r hr
      by_contra hle
      exact hnone ⟨r, hr, by omega⟩
    cases hround : p.confirmedRound with
    | none => simp [hround] at hreports
    | some r =>
      rw [hround, Option.any_some, decide_eq_true_eq] at hreports
      rw [hround, Option.all_some, decide_eq_true_eq] at hzero
      omega
  · rintro ⟨r, hr, hle⟩
    rw [node.confirmed m after p h r hr hle, Option.any_some, decide_eq_true_eq]
    exact node.positive r hr

/-- The node never reports a pool error for the transaction. -/
def Algod.NoPoolError (client : Algod) (txId : String) : Prop :=
  ∀ m after p, client.pendingTransaction txId m = .done after (.ok p) → p.poolError.isEmpty = true

/-! ## The property -/

/-- A read of the transaction that was answered. -/
def answeredRead (txId : String) : Event := .exchange (.pendingTransaction txId) .ok

/-- Every call of a run was answered, and no thread waits for ever before it makes one. -/
structure AllAnswered (s : World) (run : Outcome Error Unit × World) : Prop where
  calls : CallsAnswered .algod (attempts s run.2)
  awake : run.1 ≠ .stop .fuel

/-- A run from `s` that waits for a number of rounds, where the node was at the round `start` at
first, sees every confirmation inside its window. -/
structure SeesConfirmation (node : NodeRun client txId) (timeoutRounds start : ℕ) (s : World)
    (run : Outcome Error Unit × World) : Prop where
  reads : (attempts s run.2).count (answeredRead txId) ≤ timeoutRounds
  /-- The last attempt before it returns is a read that reported a confirmation. -/
  reported : run.1 = .ok () → (attempts s run.2).getLast? = some (answeredRead txId) ∧
    ∃ p, Settles (client.pendingTransactionCall txId) s (.ok p) run.2 ∧ p.isConfirmed = true
  seen : client.NoPoolError txId → ∀ r, node.confirmedIn = some r → r ≤ start + timeoutRounds →
    run.1 = .ok ()

/-! ## One round -/

section Rounds

variable (node : NodeRun client txId) (start timeoutRounds firstRead : ℕ) (s : World)

/-- What the loop knows when it is at a round, where it began in the world `s` right after the round
`start` and the transaction is first read at the moment `firstRead`. -/
structure Waiting (currentRound : ℕ) (t : World) (events : List Event) : Prop where
  log : t.log = s.log ++ events
  moment : s.moment ≤ t.moment
  round : start + 1 ≤ currentRound ∧ currentRound ≤ start + 1 + timeoutRounds
  begun : currentRound = start + 1 → t = s
  reads : events.count (answeredRead txId) ≤ currentRound - (start + 1)
  /-- The node has reached the round, and the reads so far reported no confirmation. -/
  reached : CallsAnswered .algod events → start + 1 < currentRound →
    currentRound ≤ node.lastRound t.moment ∧ ∀ r, node.confirmedIn = some r →
      node.lastRound firstRead < r ∧ (start + 2 < currentRound → currentRound ≤ r)

/-- How the loop may end. -/
structure Ended (o : Outcome Error Unit) (t : World) (events : List Event) : Prop where
  log : t.log = s.log ++ events
  reads : events.count (answeredRead txId) ≤ timeoutRounds
  reported : o = .ok () → events.getLast? = some (answeredRead txId) ∧
    (∃ p, Settles (client.pendingTransactionCall txId) s (.ok p) t ∧ p.isConfirmed = true) ∧
    (timeoutRounds = 1 → ∃ r, node.confirmedIn = some r ∧ r ≤ node.lastRound firstRead)
  failed : ∀ e, o = .err e → CallsAnswered .algod events → client.NoPoolError txId →
    ∀ r, node.confirmedIn = some r → r ≤ start + timeoutRounds →
      timeoutRounds = 1 ∧ node.lastRound firstRead < r
  stopped : ∀ w, o = .stop w → CallsAnswered .algod events → w = .fuel

/-- The transaction was read in a round, and no confirmation was reported. -/
structure Missed (currentRound : ℕ) (t u : World) (more : List Event) : Prop where
  log : u.log = t.log ++ more
  moment : t.moment ≤ u.moment
  reads : more.count (answeredRead txId) ≤ 1
  missed : CallsAnswered .algod more → t.moment < u.moment ∧
    (currentRound = start + 1 → u.moment - 1 = firstRead) ∧
    ∀ r, node.confirmedIn = some r → node.lastRound (u.moment - 1) < r

end Rounds

variable {node : NodeRun client txId} {start timeoutRounds firstRead currentRound : ℕ}
  {events : List Event}

/-- A run that ends badly after calls that were not all answered. -/
theorem Ended.of_unanswered {o : Outcome Error Unit} (hlog : t.log = s.log ++ events)
    (hreads : events.count (answeredRead txId) ≤ timeoutRounds) (hok : o ≠ .ok ())
    (hlost : ¬ CallsAnswered .algod events) : Ended node start timeoutRounds firstRead s o t events where
  log := hlog
  reads := hreads
  reported := fun h => absurd h hok
  failed := fun _ _ h => absurd h hlost
  stopped := fun _ _ h => absurd h hlost

/-- A round after a read that reported no confirmation. -/
theorem Waiting.next {u v : World} {more last : List Event}
    (h : Waiting node start timeoutRounds firstRead s currentRound t events)
    (hmissed : Missed node start firstRead currentRound t u more)
    (hround : currentRound < start + 1 + timeoutRounds) (hlog : v.log = u.log ++ last)
    (hreads : last.count (answeredRead txId) = 0) (hmoment : u.moment < v.moment)
    (hreached : currentRound < node.lastRound v.moment) :
    Waiting node start timeoutRounds firstRead s (currentRound + 1) v (events ++ more ++ last) where
  log := by rw [hlog, hmissed.log, h.log, List.append_assoc s.log, List.append_assoc s.log]
  moment := le_trans h.moment (le_trans hmissed.moment hmoment.le)
  round := ⟨le_trans h.round.1 (Nat.le_succ _), hround⟩
  begun := by
    intro hbegun
    have hstarted := h.round.1
    omega
  reads := by
    have hbefore := h.reads
    have hone := hmissed.reads
    have hstarted := h.round.1
    rw [List.count_append, List.count_append, hreads]
    omega
  reached := by
    intro hanswered _
    have hstarted := h.round.1
    have hbefore : CallsAnswered .algod events := hanswered.part ⟨[], more ++ last, by simp⟩
    have hmore : CallsAnswered .algod more := hanswered.part ⟨events, last, rfl⟩
    obtain ⟨hlater, hfirst, hunconfirmed⟩ := hmissed.missed hmore
    refine ⟨hreached, ?_⟩
    intro r hr
    have hlast := hunconfirmed r hr
    by_cases hbegun : currentRound = start + 1
    · rw [hfirst hbegun] at hlast
      exact ⟨hlast, fun hlt => by omega⟩
    · obtain ⟨hat, hmissing⟩ := h.reached hbefore (by omega)
      refine ⟨(hmissing r hr).1, fun _ => ?_⟩
      -- the read came after the wait before it
      have hmono := node.mono (Nat.le_sub_one_of_lt hlater)
      omega

/-- The wait that follows such a read. -/
theorem awaitRound_ends {u : World} {more : List Event}
    (h : Waiting node start timeoutRounds firstRead s currentRound t events)
    (hmissed : Missed node start firstRead currentRound t u more)
    (hround : currentRound < start + 1 + timeoutRounds) :
    RoundEnds (fun g v => ∃ events, Waiting node start timeoutRounds firstRead s g v events)
      (fun o v => ∃ events, Ended node start timeoutRounds firstRead s o v events)
      ((awaitRound client currentRound).run c u) := by
  obtain ⟨last, hlog, hends⟩ := context_ends (client.statusAfterBlockCall currentRound) rfl c
    "status_after_block failed" u
  have hreads : last.count (answeredRead txId) = 0 :=
    hends.count_eq_zero fun h => Request.noConfusion h
  have hsince : ((context "status_after_block failed"
      (algodCall (client.statusAfterBlockCall currentRound))).run c u).2.log
      = s.log ++ (events ++ more ++ last) := by
    rw [hlog, hmissed.log, h.log, List.append_assoc s.log, List.append_assoc s.log]
  have hcount : (events ++ more ++ last).count (answeredRead txId) ≤ timeoutRounds := by
    have hbefore := h.reads
    have hone := hmissed.reads
    have hstarted := h.round.1
    rw [List.count_append, List.count_append, hreads]
    omega
  have hpart : last <:+: events ++ more ++ last := (List.suffix_append _ _).isInfix
  show RoundEnds _ _ (((context "status_after_block failed"
    (algodCall (client.statusAfterBlockCall currentRound))).run c >>= fun _ => _) u)
  rw [bind_apply]
  rcases hrun : (context "status_after_block failed"
    (algodCall (client.statusAfterBlockCall currentRound))).run c u with ⟨_ | e | w, v⟩ <;>
    rw [hrun] at hends hlog hsince
  · obtain ⟨-, ⟨after, hsettled⟩, hmoment⟩ := hends
    have hreached := node.statusAfterBlock currentRound _ after hsettled
    rw [Nat.sub_add_cancel (Nat.one_le_of_lt hmoment)] at hreached
    exact .next ⟨_, h.next hmissed hround hlog hreads hmoment hreached⟩
  · refine .err ⟨_, .of_unanswered hsince hcount (by simp) ?_⟩
    exact fun hanswered => hends.2.1 (hanswered.part hpart)
  · refine .stop ⟨_, hsince, hcount, fun h => by simp at h, fun e h => by simp at h, ?_⟩
    intro w' hw hanswered
    rw [← Outcome.stop.inj hw]
    exact hends.2.1.resolve_right fun hlost => hlost (hanswered.part hpart)

/-- The reads up to this round, with the one in it, are no more than the rounds. -/
theorem Waiting.count_le {more : List Event}
    (h : Waiting node start timeoutRounds firstRead s currentRound t events)
    (hround : currentRound < start + 1 + timeoutRounds)
    (hmore : more.count (answeredRead txId) ≤ 1) :
    (events ++ more).count (answeredRead txId) ≤ timeoutRounds := by
  have hbefore := h.reads
  have hstarted := h.round.1
  rw [List.count_append]
  omega

/-- What follows a read that was answered. -/
theorem answered_ends {u : World} {p : PendingTransaction} {retried : List Event}
    (hfirst : ((algodCall (client.pendingTransactionCall txId)).run c s).2.moment - 1 = firstRead)
    (h : Waiting node start timeoutRounds firstRead s currentRound t events)
    (hround : currentRound < start + 1 + timeoutRounds)
    (hrun : (algodCall (client.pendingTransactionCall txId)).run c t = (.ok p, u))
    (hlog : u.log = t.log ++ (retried ++ [answeredRead txId]))
    (hone : (retried ++ [answeredRead txId]).count (answeredRead txId) ≤ 1)
    (hsettles : Settles (client.pendingTransactionCall txId) t (.ok p) u) :
    RoundEnds (fun g v => ∃ events, Waiting node start timeoutRounds firstRead s g v events)
      (fun o v => ∃ events, Ended node start timeoutRounds firstRead s o v events)
      ((if p.isConfirmed then pure (.inr ())
        else if !p.poolError.isEmpty then
          bail s!"Transaction rejected with pool error: {p.poolError}"
        else awaitRound client currentRound : Client (ℕ ⊕ Unit)).run c u) := by
  obtain ⟨⟨after, hsettled⟩, hmoment⟩ := hsettles
  have hread : client.pendingTransaction txId (u.moment - 1) = .done after (.ok p) := hsettled
  have hsince : u.log = s.log ++ (events ++ (retried ++ [answeredRead txId])) := by
    rw [hlog, h.log, List.append_assoc]
  have hbegun : currentRound = start + 1 → u.moment - 1 = firstRead := by
    intro hbegun
    rw [h.begun hbegun] at hrun
    rw [← hfirst, hrun]
  by_cases hconfirmed : p.isConfirmed = true
  · rw [if_pos hconfirmed]
    refine .done ⟨_, hsince, h.count_le hround hone, fun _ => ⟨?_, ?_, ?_⟩,
      fun e h => by simp at h, fun w h => by simp at h⟩
    · rw [← List.append_assoc, List.getLast?_concat]
    · exact ⟨p, ⟨⟨after, hsettled⟩, lt_of_le_of_lt h.moment hmoment⟩, hconfirmed⟩
    · intro hone
      have hstarted := h.round.1
      rw [← hbegun (by omega)]
      exact (node.isConfirmed_iff hread).mp hconfirmed
  · rw [if_neg hconfirmed]
    have hmissed : Missed node start firstRead currentRound t u (retried ++ [answeredRead txId]) := by
      refine ⟨hlog, hmoment.le, hone, fun _ => ⟨hmoment, hbegun, ?_⟩⟩
      intro r hr
      by_contra hle
      exact hconfirmed ((node.isConfirmed_iff hread).mpr ⟨r, hr, by omega⟩)
    by_cases hpool : (!p.poolError.isEmpty) = true
    · rw [if_pos hpool]
      refine .err ⟨_, hsince, h.count_le hround hone, fun h => by simp at h, ?_,
        fun w h => by simp at h⟩
      intro e _ _ hnone
      rw [hnone _ after p hread] at hpool
      exact absurd hpool (by simp)
    · rw [if_neg hpool]
      exact awaitRound_ends h hmissed hround

/-- One round of the loop. -/
theorem confirmationStep_ends
    (hfirst : ((algodCall (client.pendingTransactionCall txId)).run c s).2.moment - 1 = firstRead)
    (h : Waiting node start timeoutRounds firstRead s currentRound t events)
    (hT : 1 ≤ timeoutRounds) :
    RoundEnds (fun g v => ∃ events, Waiting node start timeoutRounds firstRead s g v events)
      (fun o v => ∃ events, Ended node start timeoutRounds firstRead s o v events)
      ((confirmationStep client txId timeoutRounds (start + 1 + timeoutRounds) currentRound).run c
        t) := by
  unfold confirmationStep
  by_cases hover : start + 1 + timeoutRounds ≤ currentRound
  · rw [if_pos hover]
    have hround := h.round
    have hreads := h.reads
    refine .err ⟨events, h.log, by omega, fun h => by simp at h, ?_, fun w h => by simp at h⟩
    intro e _ hanswered _ r hr hle
    obtain ⟨-, hmissing⟩ := h.reached hanswered (by omega)
    obtain ⟨hlast, hmore⟩ := hmissing r hr
    refine ⟨?_, hlast⟩
    by_contra hmany
    have hpast := hmore (by omega)
    omega
  · rw [if_neg hover]
    have hround : currentRound < start + 1 + timeoutRounds := not_le.mp hover
    obtain ⟨more, hlog, hends⟩ := algodCall_ends (client.pendingTransactionCall txId) rfl c t
    have hone : more.count (answeredRead txId) ≤ 1 := by
      apply le_trans (hends.count_le (.pendingTransaction txId))
      split_ifs <;> omega
    have hpart : more <:+: events ++ more := (List.suffix_append _ _).isInfix
    have hsince : ((algodCall (client.pendingTransactionCall txId)).run c t).2.log
        = s.log ++ (events ++ more) := by
      rw [hlog, h.log, List.append_assoc]
    show RoundEnds _ _ ((Proc.attempt ((algodCall (client.pendingTransactionCall txId)).run c)
      >>= fun r => _) t)
    rw [bind_apply]
    unfold Proc.attempt
    rcases hrun : (algodCall (client.pendingTransactionCall txId)).run c t with ⟨p | e | w, u⟩ <;>
      rw [hrun] at hlog hends hsince
    · obtain ⟨⟨retried, rfl, -⟩, hsettles⟩ := hends
      exact answered_ends hfirst h hround hrun hlog hone hsettles
    · obtain ⟨-, hunanswered, hmoment⟩ := hends
      dsimp only
      by_cases hunreachable : (Error.text e.display).isHostUnreachable = true
      · rw [if_pos hunreachable]
        refine .err ⟨_, .of_unanswered hsince (h.count_le hround hone) (by simp) ?_⟩
        exact fun hanswered => hunanswered (hanswered.part hpart)
      · rw [if_neg hunreachable]
        exact awaitRound_ends h ⟨hlog, hmoment, hone, fun hanswered => absurd hanswered hunanswered⟩
          hround
    · refine .stop ⟨_, hsince, h.count_le hround hone, fun h => by simp at h,
        fun e h => by simp at h, ?_⟩
      intro w' hw hanswered
      rw [← Outcome.stop.inj hw]
      exact hends.2.1.resolve_right fun hlost => hlost (hanswered.part hpart)

/-! ## The whole run -/

/-- The moment at which the transaction is first read, from the world after the status. -/
def firstReadMoment (c : Session) (client : Algod) (txId : String) (s : World) : ℕ :=
  ((algodCall (client.pendingTransactionCall txId)).run c s).2.moment - 1

/-- The loop that a run comes to, unless an addition of rounds overflows. -/
theorem waitForConfirmation_run {status : NodeStatus} {s₁ : World}
    (hclient : algodClient.run c s = (.ok client, s))
    (hstatus : (algodCall client.statusCall).run c s = (.ok status, s₁)) (hT : 1 ≤ timeoutRounds) :
    (waitForConfirmation txId timeoutRounds).run c s =
      if status.lastRound + 1 + timeoutRounds < 2 ^ 64 then
        Proc.loop (fun g => (confirmationStep client txId timeoutRounds
          (status.lastRound + 1 + timeoutRounds) g).run c) (timeoutRounds + 1)
          (status.lastRound + 1) s₁
      else (.stop .panic, s₁) := by
  have hcontext : (context "failed to get node status" (algodCall client.statusCall)).run c s
      = (.ok status, s₁) := by
    show mapErr _ ((algodCall client.statusCall).run c) s = _
    rw [mapErr_apply, hstatus]
  unfold waitForConfirmation
  rw [if_neg (by omega : ¬ timeoutRounds = 0)]
  show (algodClient.run c >>= fun client => _) s = _
  rw [bind_of_ok hclient]
  show ((context "failed to get node status" (algodCall client.statusCall)).run c >>= fun _ => _) s
    = _
  rw [bind_of_ok hcontext]
  show (((addU64 status.lastRound 1).run c) >>= fun startRound => _) s₁ = _
  unfold addU64
  by_cases hstart : status.lastRound + 1 < 2 ^ 64
  · rw [if_pos hstart]
    show (Proc.ofOutcome (if status.lastRound + 1 + timeoutRounds < 2 ^ 64 then _ else _)
      >>= fun endRound => _) s₁ = _
    split_ifs <;> rfl
  · rw [if_neg hstart, if_neg (by omega)]
    rfl

/-- A wait only goes on to the next round. -/
theorem awaitRound_next {u v : World} {g : ℕ}
    (h : (awaitRound client currentRound).run c u = (.ok (.inl g), v)) : g = currentRound + 1 := by
  obtain ⟨_, _, _, hpure⟩ := bind_ok_iff.mp h
  have hsum : (Sum.inl (currentRound + 1) : ℕ ⊕ Unit) = .inl g :=
    Outcome.ok.inj (congrArg Prod.fst hpure)
  exact (Sum.inl.inj hsum).symm

/-- The loop may be given any number of rounds above the timeout: where it runs out of them, a
thread waits for ever. -/
theorem confirmationLoop_fuel {n m : ℕ} (hn : timeoutRounds < n) (hm : timeoutRounds < m) :
    Proc.loop (fun g => (confirmationStep client txId timeoutRounds (start + 1 + timeoutRounds) g).run
      c) n (start + 1) =
    Proc.loop (fun g => (confirmationStep client txId timeoutRounds (start + 1 + timeoutRounds) g).run
      c) m (start + 1) := by
  apply loop_fuel (fun g => start + 1 + timeoutRounds - g)
  · intro g u g' v hrun
    unfold confirmationStep at hrun
    by_cases hover : start + 1 + timeoutRounds ≤ g
    · rw [if_pos hover] at hrun
      exact absurd (congrArg Prod.fst hrun) (by rintro ⟨⟩)
    · rw [if_neg hover] at hrun
      obtain ⟨r, w, -, hrest⟩ := bind_ok_iff.mp hrun
      have hnext : g' = g + 1 := by
        rcases r with e | p
        · dsimp only at hrest
          split_ifs at hrest
          · exact absurd (congrArg Prod.fst hrest) (by rintro ⟨⟩)
          · exact awaitRound_next hrest
        · dsimp only at hrest
          split_ifs at hrest
          · exact absurd (congrArg Prod.fst hrest) (by rintro ⟨⟩)
          · exact absurd (congrArg Prod.fst hrest) (by rintro ⟨⟩)
          · exact awaitRound_next hrest
      omega
  · omega
  · omega

theorem confirmationLoop_ends (node : NodeRun client txId) (start : ℕ) (hT : 1 ≤ timeoutRounds)
    (c : Session) (s : World) :
    let run := Proc.loop (fun g => (confirmationStep client txId timeoutRounds
      (start + 1 + timeoutRounds) g).run c) (timeoutRounds + 1) (start + 1) s
    ∃ events, Ended node start timeoutRounds (firstReadMoment c client txId s) s run.1 run.2
      events := by
  apply loop_ends (I := fun g t => ∃ events, Waiting node start timeoutRounds
      (firstReadMoment c client txId s) s g t events)
    (Q := fun o t => ∃ events, Ended node start timeoutRounds
      (firstReadMoment c client txId s) s o t events)
  · intro g t h
    obtain ⟨events, hwaiting⟩ := h
    exact confirmationStep_ends rfl hwaiting hT
  · intro g t h
    obtain ⟨events, hwaiting⟩ := h
    have hreads := hwaiting.reads
    have hround := hwaiting.round
    refine ⟨events, hwaiting.log, by omega, fun h => by simp at h, fun e h => by simp at h, ?_⟩
    intro w hw _
    exact (Outcome.stop.inj hw).symm
  · refine ⟨[], (List.append_nil _).symm, le_refl _, ⟨le_refl _, by omega⟩, fun _ => rfl,
      Nat.zero_le _, ?_⟩
    intro _ hlt
    omega

/-- The node has reached the round that its status reports when the transaction is first read. -/
theorem lastRound_le_firstRead (node : NodeRun client txId) {status : NodeStatus} {s₁ : World}
    (hstatus : (algodCall client.statusCall).run c s = (.ok status, s₁)) :
    status.lastRound ≤ node.lastRound (firstReadMoment c client txId s₁) := by
  obtain ⟨⟨after, hsettled⟩, hmoment⟩ := algodCall_ok rfl hstatus
  obtain ⟨_, _, hread⟩ := algodCall_ends (client.pendingTransactionCall txId) rfl c s₁
  have hlater := hread.moment
  rw [node.status _ after status hsettled]
  apply node.mono
  unfold firstReadMoment
  omega

/-- A confirmation in the window is seen if the timeout is at least two rounds, or the transaction is
confirmed by the round `start` at which the node was at first, or the node has come to the round of
the confirmation when it is asked for the first time. -/
def InSight (node : NodeRun client txId) (timeoutRounds start firstRead : ℕ) : Prop :=
  client.NoPoolError txId → ∀ r, node.confirmedIn = some r → r ≤ start + timeoutRounds →
    start + 1 + timeoutRounds < 2 ^ 64 ∧
      (timeoutRounds = 1 → r = start + 1 → r ≤ node.lastRound firstRead)

/-- A run in which all calls are answered sees every confirmation inside its window exactly when they
are in sight. -/
theorem waitForConfirmation_sees_iff (node : NodeRun client txId) {status : NodeStatus} {s₁ : World}
    (hclient : algodClient.run c s = (.ok client, s))
    (hstatus : (algodCall client.statusCall).run c s = (.ok status, s₁)) (hT : 1 ≤ timeoutRounds)
    (hanswered : AllAnswered s ((waitForConfirmation txId timeoutRounds).run c s)) :
    SeesConfirmation node timeoutRounds status.lastRound s
        ((waitForConfirmation txId timeoutRounds).run c s) ↔
      InSight node timeoutRounds status.lastRound (firstReadMoment c client txId s₁) := by
  have hreached := lastRound_le_firstRead node hstatus
  obtain ⟨before, hbefore, hends⟩ := algodCall_ends client.statusCall rfl c s
  rw [hstatus] at hbefore hends
  have hnone : before.count (answeredRead txId) = 0 :=
    hends.count_eq_zero fun h => Request.noConfusion h
  have hmoment : s.moment ≤ s₁.moment := hends.moment
  rw [waitForConfirmation_run hclient hstatus hT] at hanswered ⊢
  by_cases hfit : status.lastRound + 1 + timeoutRounds < 2 ^ 64
  · rw [if_pos hfit] at hanswered ⊢
    obtain ⟨events, hended⟩ := confirmationLoop_ends node status.lastRound hT c s₁
    set run := Proc.loop (fun g => (confirmationStep client txId timeoutRounds
      (status.lastRound + 1 + timeoutRounds) g).run c) (timeoutRounds + 1)
      (status.lastRound + 1) s₁
    have hattempts : attempts s run.2 = before ++ events := by
      apply attempts_of_log
      rw [hended.log, hbefore, List.append_assoc]
    have hcalls : CallsAnswered .algod events := by
      have hall := hanswered.calls
      rw [hattempts] at hall
      exact hall.part (List.suffix_append _ _).isInfix
    constructor
    · intro hsees hpool r hr hle
      refine ⟨hfit, ?_⟩
      intro hone _
      obtain ⟨-, -, hfirst⟩ := hended.reported (hsees.seen hpool r hr hle)
      obtain ⟨r', hr', hle'⟩ := hfirst hone
      rw [hr] at hr'
      rw [Option.some.inj hr']
      exact hle'
    · intro hsight
      refine ⟨?_, ?_, ?_⟩
      · rw [hattempts, List.count_append, hnone, Nat.zero_add]
        exact hended.reads
      · intro hok
        obtain ⟨hlast, ⟨p, hsettles, hconfirmed⟩, -⟩ := hended.reported hok
        refine ⟨?_, p, ⟨hsettles.settled, lt_of_le_of_lt hmoment hsettles.moment⟩, hconfirmed⟩
        rw [hattempts, List.getLast?_append, hlast]
        rfl
      · intro hpool r hr hle
        obtain ⟨-, hfirst⟩ := hsight hpool r hr hle
        rcases hrun : run.1 with ⟨⟩ | e | w
        · rfl
        · obtain ⟨hone, hlost⟩ := hended.failed e hrun hcalls hpool r hr hle
          have hpast := hfirst hone
          omega
        · have hfuel := hended.stopped w hrun hcalls
          rw [hfuel] at hrun
          exact absurd hrun hanswered.awake
  · rw [if_neg hfit] at hanswered ⊢
    have hattempts : attempts s s₁ = before := attempts_of_log hbefore
    constructor
    · intro hsees hpool r hr hle
      exact absurd (hsees.seen hpool r hr hle) (by simp)
    · intro hsight
      refine ⟨?_, fun h => by simp at h, ?_⟩
      · dsimp only
        rw [hattempts, hnone]
        exact Nat.zero_le _
      · intro hpool r hr hle
        exact absurd (hsight hpool r hr hle).1 hfit

/-! ## A node that comes to its next round while it is waited for -/

namespace LocalNode

/-- The last round is 7 up to the moment 2, and 9 from then on. -/
def roundAt (m : ℕ) : ℕ := if m ≤ 2 then 7 else 9

/-- A node where the transaction is confirmed in the round 8. -/
def confirming : Algod :=
  { silent with
    status := fun m => .done 0 (.ok ⟨roundAt m⟩)
    statusAfterBlock := fun r m => if r < roundAt (m + 1) then .done 0 (.ok ()) else .never
    pendingTransaction := fun _ m => .done 0 (.ok
      { confirmedRound := if 8 ≤ roundAt m then some 8 else none
        poolError := ""
        assetIndex := none
        txn := none
        value := .error "" }) }

/-- The node as it runs. -/
def confirmingRun : NodeRun confirming "TX" where
  lastRound := roundAt
  confirmedIn := some 8
  mono := by
    intro m n hle
    unfold roundAt
    split_ifs <;> omega
  positive := fun r hr => by cases hr; decide
  status := fun m after status h => by cases h; rfl
  statusAfterBlock := by
    intro r m after h
    by_contra hle
    have hnever : confirming.statusAfterBlock r m = .never := if_neg hle
    rw [hnever] at h
    cases h
  confirmed := by
    intro m after p h r hr hle
    cases h
    cases hr
    exact if_pos hle
  unconfirmed := by
    intro m after p h hlt
    cases h
    have hnot : ¬ 8 ≤ roundAt m := not_le.mpr (hlt 8 rfl)
    dsimp only
    rw [if_neg hnot]
    rfl

/-- A world without limits. -/
def unlimited : World := { world 0 with dailyBudget := none }

end LocalNode

open LocalNode in
/-- With a timeout of two rounds the second read sees the confirmation. -/
theorem waitForConfirmation_sees_round8 :
    SeesConfirmation confirmingRun 2 7 unlimited
        ((waitForConfirmation "TX" 2).run (session confirming) unlimited) ↔
      InSight confirmingRun 2 7 (firstReadMoment (session confirming) confirming "TX"
        ((algodCall confirming.statusCall).run (session confirming) unlimited).2) :=
  waitForConfirmation_sees_iff confirmingRun rfl rfl (by decide)
    ⟨CallsAnswered.of_answered (by decide), by decide⟩

open LocalNode in
/-- With a timeout of one round the node is at the round 9 when the wait ends, and is not asked for
the transaction again. -/
theorem round8_not_seen :
    AllAnswered unlimited ((waitForConfirmation "TX" 1).run (session confirming) unlimited) ∧
      ¬ SeesConfirmation confirmingRun 1 7 unlimited
        ((waitForConfirmation "TX" 1).run (session confirming) unlimited) := by
  refine ⟨⟨CallsAnswered.of_answered (by decide), by decide⟩, ?_⟩
  intro hsees
  have hpool : confirming.NoPoolError "TX" := by
    intro m after p h
    cases h
    rfl
  have hok := hsees.seen hpool 8 rfl (by decide)
  exact absurd hok (by rintro ⟨⟩)

end BlockchainOps.Algo
