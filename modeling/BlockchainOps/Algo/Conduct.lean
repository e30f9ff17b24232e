import BlockchainOps.Algo.GroupSubmission

/-!
# What a client does of itself

A client broadcasts what the caller hands over signed, and what it was asked for, has built for its
own address and signed with its own key. It keeps an application's creator only as algod served it
in answer to a request. `Behaves` says both of every run of a program; it holds of one attempt at a
request and is kept by every way to put programs together.
-/

namespace BlockchainOps.Algo

open Effect Proc

variable {α β γ : Type} {c : Session} {base s t u : World}

/-! ## Worlds that come later -/

/-- The second world comes after the first: attempts were noted, and time has passed. -/
structure World.Precedes (s t : World) : Prop where
  log : s.log <+: t.log
  moment : s.moment ≤ t.moment

instance : Std.Refl World.Precedes := ⟨fun _ => ⟨List.prefix_rfl, le_refl _⟩⟩

instance : IsTrans World World.Precedes where
  trans _ _ _ h h' := ⟨h.log.trans h'.log, h.moment.trans h'.moment⟩

theorem World.precedes_record (s : World) (e : Event) : s.Precedes (s.record e) :=
  ⟨List.prefix_append _ _, Nat.le_succ _⟩

theorem World.precedes_creators (s : World) (creators : Mutex (List (ℕ × String))) :
    s.Precedes { s with appCreators := creators } :=
  ⟨List.prefix_rfl, le_refl _⟩

/-- Between two worlds algod was asked this and served `a`: the attempt was made at `w`, and was
noted as answered. -/
def Session.ServedBetween (c : Session) (s t : World) (ask : Algod → NodeCall α) (a : α) : Prop :=
  ∃ client w after, c.algod = .ok client ∧ s.Precedes w ∧
    (ask client).settle w.moment = .done after (.ok a) ∧
    (w.record (.exchange (ask client).request .ok)).Precedes t

theorem Session.ServedBetween.later {ask : Algod → NodeCall α} {a : α}
    (h : c.ServedBetween s t ask a) (hlater : t.Precedes u) : c.ServedBetween s u ask a := by
  obtain ⟨client, w, after, hclient, hfrom, hsettled, hto⟩ := h
  exact ⟨client, w, after, hclient, hfrom, hsettled, trans_of _ hto hlater⟩

/-- Algod was asked this after the world, and served `a`. -/
def Session.Tells (c : Session) (base : World) (ask : Algod → NodeCall α) (a : α) : Prop :=
  ∃ t, c.ServedBetween base t ask a

/-- Between two worlds algod was asked for the application and served this creator of it. -/
def Session.Reports (c : Session) (s t : World) (appId : ℕ) (creator : String) : Prop :=
  ∃ v, c.ServedBetween s t (fun client => client.appCall appId) (.ok v) ∧
    parseAppCreatorFromAppInfoValue v = some creator

/-- A call that returns was served what it returns. -/
theorem served_of_context (ask : Algod → NodeCall α) {client : Algod} {what : String} {a : α}
    (hclient : c.algod = .ok client) (hreply : (ask client).reply = replyOf)
    (hbase : base.Precedes s) (h : (context what (algodCall (ask client))).run c s = (.ok a, t)) :
    c.ServedBetween base t ask a := by
  obtain ⟨events, hlog, hends⟩ := context_ends (ask client) hreply c what s
  rw [h] at hlog hends
  obtain ⟨⟨retried, rfl, -⟩, ⟨after, hsettled⟩, hends⟩ := hends
  have hmoment : s.moment < t.moment := hends
  -- the world of the last attempt
  refine ⟨client, { s with log := s.log ++ retried, moment := t.moment - 1 }, after, hclient, ?_,
    hsettled, ?_⟩
  · have hlater : s.moment ≤ t.moment - 1 := by omega
    exact ⟨hbase.log.trans (List.prefix_append _ _), hbase.moment.trans hlater⟩
  · constructor
    · show s.log ++ retried ++ [.exchange (ask client).request .ok] <+: t.log
      have hsame : t.log = s.log ++ (retried ++ [.exchange (ask client).request .ok]) := hlog
      rw [hsame, List.append_assoc]
    · show t.moment - 1 + 1 ≤ t.moment
      omega

/-! ## What is authorized -/

/-- The handle has this address. -/
def Session.At (c : Session) (address : Address) : Prop :=
  ∃ text, c.ops.address = some text ∧ c.env.algonaut.parseAddress text = .ok address

/-- The client built the transaction: from the handle's address, with a note of its own and with
parameters that the node suggested. -/
structure Session.Builds (c : Session) (b : TransactionBuilder) (tx : Transaction) : Prop where
  sender : c.At b.sender
  note : b.note.length = 16
  built : ∃ params, c.Suggested params ∧ c.env.algonaut.build b params = .ok tx

/-- The handle's key signs with this seed. -/
def Session.Key (c : Session) (seed : Wire.Field 32) : Prop :=
  c.ops.privateKeyBytes c.env.keys = .ok seed

/-- What the caller hands to a client to send, and what it asks for in a transaction or in the
transactions of a group. -/
structure Mandate where
  hands : Request → Prop
  asks : TransactionKind → Prop
  asksGroup : List TransactionKind → Prop

/-- Nothing is handed over or asked for. -/
def Mandate.none : Mandate := ⟨fun _ => False, fun _ => False, fun _ => False⟩

variable {m : Mandate}

/-- The requests that a client may send: what it is handed, every request but a broadcast, and the
broadcast of what it was asked for, built and signed. -/
inductive Session.Authorizes (c : Session) (m : Mandate) : Request → Prop
  | given {r : Request} (h : m.hands r) : Authorizes c m r
  | quiet {r : Request} (h : quiet r) : Authorizes c m r
  | one {b : TransactionBuilder} {tx : Transaction} {seed : Wire.Field 32}
      {signed : SignedTransaction} {bytes : Bytes} (asked : m.asks b.kind) (built : c.Builds b tx)
      (key : c.Key seed) (sealed : c.env.algonaut.sign seed tx = .ok signed)
      (encoded : c.env.algonaut.toMsgPack signed = .ok bytes) : Authorizes c m (.sendRaw bytes)
  | group {bs : List TransactionBuilder} {txns group : List Transaction} {seed : Wire.Field 32}
      {signed : List SignedTransaction} (asked : m.asksGroup (bs.map TransactionBuilder.kind))
      (built : List.Forall₂ c.Builds bs txns)
      (grouped : c.env.algonaut.assignGroup txns = .ok group) (key : c.Key seed)
      (sealed : List.Forall₂ (fun tx stx => c.env.algonaut.sign seed tx = .ok stx) group signed) :
      Authorizes c m (.sendTransactions signed)

/-- Without a key the client broadcasts only what it is handed. -/
theorem Session.Authorizes.of_no_key (hlocked : ∀ seed, ¬ c.Key seed) {r : Request}
    (hr : c.Authorizes m r) (hbroadcast : r.broadcasts = true) : m.hands r := by
  cases hr with
  | given hgiven => exact hgiven
  | quiet hquiet =>
    have hsilent : r.broadcasts = false := hquiet
    rw [hsilent] at hbroadcast
    exact absurd hbroadcast (by simp)
  | one asked built key sealed encoded => exact absurd key (hlocked _)
  | group asked built grouped key sealed => exact absurd key (hlocked _)

/-- A client that is handed and asked for nothing broadcasts nothing. -/
theorem Session.Authorizes.of_nothing (hhands : ∀ r, ¬ m.hands r) (hasks : ∀ kind, ¬ m.asks kind)
    (hgroup : ∀ kinds, ¬ m.asksGroup kinds) {r : Request} (hr : c.Authorizes m r) :
    r.broadcasts = false := by
  cases hr with
  | given hgiven => exact absurd hgiven (hhands _)
  | quiet hquiet => exact hquiet
  | one asked built key sealed encoded => exact absurd asked (hasks _)
  | group asked built grouped key sealed => exact absurd asked (hgroup _)

/-- A world that comes after the base, with a cache of creators that were in the cache there or that
algod reported since. -/
structure World.Keeps (c : Session) (base s : World) : Prop where
  later : base.Precedes s
  creators : ∀ entry ∈ s.appCreators.value, entry ∈ base.appCreators.value ∨
    c.Reports base s entry.1 entry.2

theorem World.keeps_self (c : Session) (base : World) : base.Keeps c base :=
  ⟨refl_of _ _, fun _ h => Or.inl h⟩

theorem Session.Reports.later {appId : ℕ} {creator : String} (h : c.Reports s t appId creator)
    (hlater : t.Precedes u) : c.Reports s u appId creator := by
  obtain ⟨v, hserved, hcreator⟩ := h
  exact ⟨v, hserved.later hlater, hcreator⟩

theorem World.Keeps.step (h : base.Keeps c s) (hlater : s.Precedes t)
    (hcreators : t.appCreators = s.appCreators) : base.Keeps c t where
  later := trans_of _ h.later hlater
  creators := by
    intro entry hentry
    rw [hcreators] at hentry
    exact (h.creators entry hentry).imp_right fun hreports => hreports.later hlater

/-- What a client does between two worlds, both after the base. -/
structure Conducts (c : Session) (base : World) (m : Mandate) (s t : World) : Prop where
  sends : s.SendsOnly (c.Authorizes m) t
  keeps : base.Keeps c t

/-- The client sends what it may, and keeps the cache one of reported creators. -/
def Conduct (c : Session) (base : World) (m : Mandate) (s t : World) : Prop :=
  base.Keeps c s → Conducts c base m s t

theorem Conduct.of_still (hsent : t.sent = s.sent) (hlater : s.Precedes t)
    (hcreators : t.appCreators = s.appCreators) : Conduct c base m s t :=
  fun hkeeps => ⟨.of_sent hsent, hkeeps.step hlater hcreators⟩

instance : Std.Refl (Conduct c base m) := ⟨fun _ => .of_still rfl (refl_of _ _) rfl⟩

instance : IsTrans World (Conduct c base m) where
  trans s t u := by
    intro h h' hkeeps
    obtain ⟨hsends, hafter⟩ := h hkeeps
    obtain ⟨hsends', hafter'⟩ := h' hafter
    exact ⟨trans_of _ hsends hsends', hafter'⟩

/-! ## Programs -/

/-- Every run of the program is conducted so. -/
def Behaves (c : Session) (base : World) (m : Mandate) (x : Client α) : Prop :=
  Respects (Conduct c base m) (x.run c)

/-- The program returns this value in some run after the base. -/
def Returns (c : Session) (base : World) (x : Client α) (a : α) : Prop :=
  ∃ s t, base.Keeps c s ∧ x.run c s = (.ok a, t)

/-- One run of a part, and of what follows where it returned. -/
theorem Conduct.bind {x : Client α} {g : α → Client β} (hx : Conduct c base m s (x.run c s).2)
    (hg : ∀ a t, x.run c s = (.ok a, t) → Conduct c base m t ((g a).run c t).2) :
    Conduct c base m s ((x >>= g).run c s).2 := by
  show Conduct c base m s ((x.run c >>= fun a => (g a).run c) s).2
  rw [bind_apply]
  rcases hrun : x.run c s with ⟨a | e | w, t⟩ <;> rw [hrun] at hx
  · exact trans_of _ hx (hg a t hrun)
  · exact hx
  · exact hx

namespace Behaves

theorem pure (a : α) : Behaves c base m (pure a : Client α) := Respects.pure a

theorem raise (e : Error) : Behaves c base m (Confined.raise e : Client α) := Respects.raise e

theorem bail (message : String) : Behaves c base m (bail message : Client α) := raise _

theorem lift (f : Session → Except Error α) : Behaves c base m (Confined.lift f : Client α) :=
  Respects.ofExcept (f c)

theorem ofOutcome (o : Outcome Error α) : Behaves c base m (Confined.ofOutcome o : Client α) :=
  Respects.ofOutcome o

theorem read (f : Session → World → α) : Behaves c base m (Confined.read f : Client α) :=
  Respects.get.bind fun _ => Respects.pure _

theorem ask (f : Env → ℕ → α) : Behaves c base m (ask f) := fun _ =>
  .of_still rfl ⟨List.prefix_rfl, Nat.le_succ _⟩ rfl

theorem orBail (what : String) (r : Except String α) : Behaves c base m (orBail what r) := by
  cases r with
  | ok a => exact pure a
  | error e => exact raise _

theorem require (message : String) (o : Option α) : Behaves c base m (require message o) := by
  cases o with
  | none => exact raise _
  | some a => exact pure a

/-- What follows a part is conducted so if it is in the world that each run of the part ends in. -/
theorem bindAt {x : Client α} {g : α → Client β} (hx : Behaves c base m x)
    (hg : ∀ a s t, base.Keeps c s → x.run c s = (.ok a, t) → Conduct c base m t ((g a).run c t).2) :
    Behaves c base m (x >>= g) :=
  fun s hkeeps => Conduct.bind (hx s) (fun a t hrun => hg a s t hkeeps hrun) hkeeps

/-- What follows a part is conducted so if it is after every value that the part returns. -/
theorem bind {x : Client α} {g : α → Client β} (hx : Behaves c base m x)
    (hg : ∀ a, Returns c base x a → Behaves c base m (g a)) : Behaves c base m (x >>= g) :=
  hx.bindAt fun a s t hkeeps hrun => hg a ⟨s, t, hkeeps, hrun⟩ t

/-- A guard before the rest of a program. -/
theorem guard {p : Prop} [Decidable p] {message : String} {rest : Unit → Client α}
    (hrest : Behaves c base m (rest ())) :
    Behaves c base m (if p then Algo.bail message >>= rest else rest ()) := by
  split_ifs
  · exact (bail message).bind fun _ _ => hrest
  · exact hrest

theorem resultOf {x : Client α} (hx : Behaves c base m x) : Behaves c base m (resultOf x) :=
  Respects.attempt hx

theorem context {x : Client α} (what : String) (hx : Behaves c base m x) :
    Behaves c base m (context what x) :=
  Respects.mapErr hx

theorem orUnreachable {x : Client α} (operation : String) (other : Error → Error)
    (hx : Behaves c base m x) : Behaves c base m (orUnreachable operation other x) :=
  Respects.mapErr hx

theorem orAbsent {x : Client α} (operation : String) (hx : Behaves c base m x) :
    Behaves c base m (orAbsent operation x) := by
  apply hx.resultOf.bind
  intro result _
  cases result with
  | ok a => exact pure _
  | error e =>
    dsimp only
    split_ifs
    · exact raise _
    · exact pure _

theorem forEach {g : α → Client β} (hg : ∀ a, Behaves c base m (g a)) (as : List α) :
    Behaves c base m (Confined.forEach g as) :=
  Respects.forEach hg as

theorem loop {step : γ → Client (γ ⊕ β)} (hstep : ∀ g, Behaves c base m (step g))
    (fuel : Session → ℕ) (g : γ) : Behaves c base m (Confined.loop step fuel g) :=
  Respects.loop hstep (fuel c) g

/-- A program on a value of the caller's own. -/
theorem owning {κ : Type} (k : κ) {x : Session → Proc (κ × World) Error α}
    (hx : ∀ c, Respects (fun s t => (requestMeter c).Reaches s.2 t.2) (x c))
    (h : Respects (InvImage (Conduct c base m) Prod.snd) (x c)) :
    Behaves c base m (Confined.owning k x hx : Client (α × κ)) :=
  fun s => h (k, s)

end Behaves

/-- What a program returns after a part, it returns after some value of the part. -/
theorem Returns.of_bind {x : Client α} {g : α → Client β} {b : β} (hx : Behaves c base .none x)
    (h : Returns c base (x >>= g) b) : ∃ a, Returns c base x a ∧ Returns c base (g a) b := by
  obtain ⟨s, u, hkeeps, hrun⟩ := h
  obtain ⟨a, t, hfirst, hrest⟩ := bind_ok_iff.mp hrun
  have hafter := hx s hkeeps
  rw [hfirst] at hafter
  exact ⟨a, ⟨s, t, hkeeps, hfirst⟩, t, u, hafter.keeps, hrest⟩

/-- A traversal returns one value for each element. -/
theorem Returns.of_forEach {g : α → Client β} (hg : ∀ a, Behaves c base .none (g a)) {as : List α}
    {bs : List β} (h : Returns c base (Confined.forEach g as) bs) :
    List.Forall₂ (fun a b => Returns c base (g a) b) as bs := by
  obtain ⟨s, t, hkeeps, hrun⟩ := h
  have hpairs : Triple (base.Keeps c) (Proc.forEach (fun a => (g a).run c) as)
      (fun bs t => base.Keeps c t ∧ List.Forall₂ (fun a b => Returns c base (g a) b) as bs)
      (fun _ _ => True) := by
    apply Triple.forEach_pairs
    intro a _ s hkeeps
    have hafter := hg a s hkeeps
    rcases hrun : (g a).run c s with ⟨b | e | w, t⟩ <;> rw [hrun] at hafter
    · exact ⟨hafter.keeps, s, t, hkeeps, hrun⟩
    · trivial
    · trivial
  exact (hpairs.of_ok hkeeps hrun).2

/-! ## Calls -/

/-- No request was sent, and no creator cached. -/
structure Still (s t : World) : Prop where
  sent : t.sent = s.sent
  later : s.Precedes t
  appCreators : t.appCreators = s.appCreators

instance : Std.Refl Still := ⟨fun _ => ⟨rfl, refl_of _ _, rfl⟩⟩

instance : IsTrans World Still where
  trans _ _ _ h h' :=
    ⟨h'.sent.trans h.sent, trans_of _ h.later h'.later, h'.appCreators.trans h.appCreators⟩

theorem askClock_still (clock : ℕ → ℕ) : Respects Still (askClock clock) :=
  fun _ => ⟨rfl, ⟨List.prefix_rfl, Nat.le_succ _⟩, rfl⟩

theorem pollLimiter_still (limiter : RateLimiter) (now : ℕ) :
    Respects Still (pollLimiter limiter now) :=
  fun _ => ⟨rfl, ⟨List.prefix_rfl, le_refl _⟩, rfl⟩

theorem charge_still (now : Option ℕ) : Respects Still (charge now) :=
  fun _ => ⟨rfl, ⟨List.prefix_rfl, le_refl _⟩, rfl⟩

theorem refuse_still (e : AlgoError) : Respects Still (refuse e : Proc World Error α) := by
  intro s
  refine ⟨?_, s.precedes_record _, rfl⟩
  show (s.record (.refused e)).sent = s.sent
  rw [World.record_sent]
  exact List.append_nil _

theorem checkBudget_still (now : Option ℕ) : Respects Still (checkBudget now) := by
  refine Respects.get.bind fun w => ?_
  rcases w.dailyBudget with _ | daily
  · exact Respects.pure _
  · cases now with
    | none => exact Respects.pure _
    | some now =>
      have hrolled : Respects Still (Proc.modify fun w =>
          { w with dailyBudget := some (daily.check now).2 } : Proc World Error Unit) :=
        fun _ => ⟨rfl, ⟨List.prefix_rfl, le_refl _⟩, rfl⟩
      refine hrolled.bind fun _ => ?_
      cases (daily.check now).1 with
      | ok _ => exact Respects.pure _
      | error wait => exact refuse_still _

theorem takeToken_still (c : Session) (operation : String) :
    Respects Still (takeToken c operation) := by
  apply Respects.loop
  intro _
  refine Respects.get.bind fun w => ?_
  rcases w.rateLimiter with _ | limiter
  · exact Respects.pure _
  · refine (askClock_still _).bind fun now => ?_
    refine (pollLimiter_still limiter now).bind fun wait => ?_
    split_ifs
    · exact Respects.pure _
    · exact refuse_still _
    · exact Respects.pure _

theorem applyRateLimit_still (c : Session) (operation : String) :
    Respects Still (applyRateLimit c operation) := by
  refine Respects.get.bind fun w => ?_
  have hlimits : ∀ now, Respects Still (do checkBudget now; takeToken c operation; charge now) :=
    fun now => (checkBudget_still now).bind fun _ => (takeToken_still c operation).bind fun _ =>
      charge_still now
  rcases w.dailyBudget with _ | daily
  · exact (Respects.pure none).bind hlimits
  · exact (askClock_still _).bind fun now => (Respects.pure (some now)).bind hlimits

namespace Behaves

/-- An attempt sends its request, if any. -/
theorem sendOnce (operation : String) {call : NodeCall α} (h : c.Authorizes m call.request) :
    Behaves c base m (sendOnce operation call) := by
  have hlimits : Respects (Conduct c base m) (applyRateLimit c operation) := by
    intro s
    obtain ⟨hsent, hlater, hcreators⟩ := applyRateLimit_still c operation s
    exact .of_still hsent hlater hcreators
  have hblock : Respects (Conduct c base m) (rtBlockOn c operation call) := by
    intro s hkeeps
    rw [rtBlockOn_snd]
    refine ⟨⟨_, World.record_sent _ s, ?_⟩, hkeeps.step (s.precedes_record _) rfl⟩
    intro r hr
    rw [block_sent] at hr
    split_ifs at hr
    · rw [List.mem_singleton.mp hr]
      exact h
    · simp at hr
  exact hlimits.bind fun _ => hblock.mapErr

theorem callWithRetry (kind : CallKind) {call : NodeCall α}
    (h : c.Authorizes m call.request) : Behaves c base m (callWithRetry kind call) := by
  apply loop
  intro attempt
  apply (sendOnce kind.operation h).bind
  intro r _
  cases r with
  | ok a => exact pure _
  | error e =>
    dsimp only
    split_ifs
    · exact pure _
    · exact raise _

theorem algodCall {call : NodeCall α} (h : c.Authorizes m call.request) :
    Behaves c base m (algodCall call) :=
  callWithRetry .algod h

theorem indexerCall {call : NodeCall α} (h : c.Authorizes m call.request) :
    Behaves c base m (indexerCall call) :=
  callWithRetry .indexerRead h

/-- A call that broadcasts nothing. -/
theorem quietCall {call : NodeCall α} (h : call.request.broadcasts = false) :
    Behaves c base m (Algo.algodCall call) :=
  algodCall (.quiet h)

theorem quietRead {call : NodeCall α} (h : call.request.broadcasts = false) :
    Behaves c base m (Algo.indexerCall call) :=
  indexerCall (.quiet h)

end Behaves

end BlockchainOps.Algo
