import BlockchainOps.Algo.Exchanges
import BlockchainOps.Algo.TransactionGroup
import BlockchainOps.Algo.Operations

/-!
# The requests that a program sends

`Sends P x` says that every request a run of `x` sends has `P`. It holds of a call for its own
request and is kept by every way to put programs together. Whether the first request of a call is
sent is decided by the limits and by the runtime alone (`Session.Prevents`).
-/

namespace BlockchainOps.Algo

open Effect Proc

variable {α β γ : Type} {c : Session} {s t : World} {P : Request → Prop}

/-- The requests sent between two worlds. -/
def sentSince (s t : World) : List Request := t.sent.drop s.sent.length

theorem sentSince_of_sent {rs : List Request} (h : t.sent = s.sent ++ rs) : sentSince s t = rs := by
  unfold sentSince
  rw [h, List.drop_left]

theorem sentSince_eq_nil (h : t.sent = s.sent) : sentSince s t = [] :=
  sentSince_of_sent (by rw [h, List.append_nil])

/-- Only requests with `P` were sent between two worlds. -/
def World.SendsOnly (P : Request → Prop) (s t : World) : Prop :=
  ∃ rs, t.sent = s.sent ++ rs ∧ ∀ r ∈ rs, P r

theorem World.SendsOnly.of_sent (h : t.sent = s.sent) : s.SendsOnly P t :=
  ⟨[], by rw [h, List.append_nil], by simp⟩

theorem World.SendsOnly.mono {Q : Request → Prop} (h : s.SendsOnly P t) (hPQ : ∀ r, P r → Q r) :
    s.SendsOnly Q t := by
  obtain ⟨rs, hsent, hall⟩ := h
  exact ⟨rs, hsent, fun r hr => hPQ r (hall r hr)⟩

theorem World.SendsOnly.sentSince (h : s.SendsOnly P t) : ∀ r ∈ sentSince s t, P r := by
  obtain ⟨rs, hsent, hall⟩ := h
  rw [sentSince_of_sent hsent]
  exact hall

/-- A run sends what its two parts send, one after the other. -/
theorem World.SendsOnly.sentSince_trans {u : World} {Q : Request → Prop} (hfirst : s.SendsOnly P u)
    (hsecond : u.SendsOnly Q t) :
    Algo.sentSince s t = Algo.sentSince s u ++ Algo.sentSince u t := by
  obtain ⟨rs, hrs, -⟩ := hfirst
  obtain ⟨rs', hrs', -⟩ := hsecond
  have hall : t.sent = s.sent ++ (rs ++ rs') := by rw [hrs', hrs, List.append_assoc]
  rw [sentSince_of_sent hall, sentSince_of_sent hrs, sentSince_of_sent hrs']

/-- What was sent in one of two parts of a run was sent in the run. -/
theorem mem_sentSince_iff {u : World} {Q : Request → Prop} (hfirst : s.SendsOnly P u)
    (hsecond : u.SendsOnly Q t) (r : Request) :
    r ∈ sentSince s t ↔ r ∈ sentSince s u ∨ r ∈ sentSince u t := by
  rw [hfirst.sentSince_trans hsecond, List.mem_append]

instance : Std.Refl (World.SendsOnly P) := ⟨fun _ => .of_sent rfl⟩

instance : IsTrans World (World.SendsOnly P) where
  trans s t u := by
    intro h h'
    obtain ⟨rs, hsent, hall⟩ := h
    obtain ⟨rs', hsent', hall'⟩ := h'
    refine ⟨rs ++ rs', by rw [hsent', hsent, List.append_assoc], ?_⟩
    intro r hr
    rcases List.mem_append.mp hr with hmem | hmem
    · exact hall r hmem
    · exact hall' r hmem

/-! ## Programs -/

/-- Every run of the program sends only requests with `P`. -/
def Sends (P : Request → Prop) (x : Client α) : Prop := ∀ c, Respects (World.SendsOnly P) (x.run c)

namespace Sends

theorem of_run {x : Client α} {o : Outcome Error α} (hx : Sends P x) (h : x.run c s = (o, t)) :
    s.SendsOnly P t := by
  have hsends := hx c s
  rwa [h] at hsends

/-- A program that makes no attempt sends nothing. -/
theorem of_local {x : Client α} (hx : Local x) : Sends P x := by
  intro c s
  apply World.SendsOnly.of_sent
  apply World.sent_congr
  have hends := hx c s.log s rfl
  rcases hrun : x.run c s with ⟨a | e | w, t⟩ <;> rw [hrun] at hends
  · exact hends
  · exact hends.1
  · exact hends.1

theorem bind {x : Client α} {g : α → Client β} (hx : Sends P x) (hg : ∀ a, Sends P (g a)) :
    Sends P (x >>= g) :=
  fun c => (hx c).bind fun a => hg a c

/-- A guard before the rest of a program. -/
theorem guard {p : Prop} [Decidable p] {message : String} {rest : Unit → Client α}
    (hrest : Sends P (rest ())) : Sends P (if p then bail message >>= rest else rest ()) := by
  split_ifs
  · exact (of_local (Local.bail message)).bind fun _ => hrest
  · exact hrest

theorem lift (f : Session → Except Error α) : Sends P (Confined.lift f : Client α) :=
  fun c => Respects.ofExcept (f c)

theorem ofOutcome (o : Outcome Error α) : Sends P (Confined.ofOutcome o : Client α) :=
  fun _ => Respects.ofOutcome o

theorem raise (e : Error) : Sends P (Confined.raise e : Client α) := fun _ => Respects.raise e

theorem ask (f : Env → ℕ → α) : Sends P (ask f) := fun _ _ => .of_sent rfl

theorem resultOf {x : Client α} (hx : Sends P x) : Sends P (resultOf x) := fun c => (hx c).attempt

theorem context {x : Client α} (what : String) (hx : Sends P x) : Sends P (context what x) :=
  fun c => (hx c).mapErr

theorem forEach {g : α → Client β} (hg : ∀ a, Sends P (g a)) (as : List α) :
    Sends P (Confined.forEach g as) :=
  fun c => Respects.forEach (fun a => hg a c) as

theorem loop {step : γ → Client (γ ⊕ β)} (hstep : ∀ g, Sends P (step g)) (fuel : Session → ℕ)
    (g : γ) : Sends P (Confined.loop step fuel g) :=
  fun c => Respects.loop (fun g => hstep g c) (fuel c) g

/-- A call sends its request. -/
theorem algodCall (call : NodeCall α) (hreply : call.reply = replyOf) (h : P call.request) :
    Sends P (algodCall call) := by
  intro c s
  obtain ⟨events, hlog, hends⟩ := algodCall_ends call hreply c s
  refine ⟨events.filterMap Event.sent, World.sent_of_log hlog, ?_⟩
  intro r hr
  obtain ⟨e, he, hsent⟩ := List.mem_filterMap.mp hr
  rw [hends.request e he r hsent]
  exact h

end Sends

/-- A call that returns has sent its request, and no other. -/
theorem call_sent {call : NodeCall α} (hreply : call.reply = replyOf) {what : String} {a : α}
    (h : (context what (algodCall call)).run c s = (.ok a, t)) :
    call.request ∈ sentSince s t ∧ s.SendsOnly (fun r => r = call.request) t := by
  have honly : Sends (fun r => r = call.request) (context what (algodCall call)) :=
    .context what (.algodCall call hreply rfl)
  refine ⟨?_, honly.of_run h⟩
  obtain ⟨events, hlog, hends⟩ := context_ends call hreply c what s
  rw [h] at hlog hends
  obtain ⟨⟨retried, rfl, -⟩, -⟩ := hends
  rw [sentSince_of_sent (World.sent_of_log hlog), List.filterMap_append]
  exact List.mem_append_right _ (List.mem_singleton_self _)

/-! ## Whether the first request is sent -/

/-- The next request is not sent: the limits refuse it, or no runtime can be built for it. -/
def Session.Prevents (c : Session) (s : World) : Prop :=
  (∃ e, (applyRateLimit c CallKind.algod.operation s).1 = .err e) ∨
    ∃ t, applyRateLimit c CallKind.algod.operation s = (.ok (), t) ∧
      c.env.runtimeFailure t.moment ≠ none

/-- No program takes back a request that was sent. -/
theorem Client.sent_append (x : Client α) (c : Session) (s : World) :
    ∃ rs, (x.run c s).2.sent = s.sent ++ rs := by
  obtain ⟨rs, hrun⟩ := x.respects c s
  exact ⟨rs, sent_of_run hrun⟩

theorem sendOnce_prevented (call : NodeCall α) (h : c.Prevents s) :
    ∃ e t, (sendOnce CallKind.algod.operation call).run c s = (.err e, t) ∧ t.sent = s.sent := by
  have hlimits := applyRateLimit_triple c CallKind.algod.operation s s rfl
  rcases h with ⟨e, he⟩ | ⟨t, hrun, hfailure⟩
  · rcases hrun : applyRateLimit c CallKind.algod.operation s with ⟨o, t⟩
    rw [hrun] at he hlimits
    cases he
    have hrefused : NotAdmitted CallKind.algod.operation s t (some e) := hlimits
    exact ⟨e, t, bind_of_err hrun, hrefused.quiet.sent⟩
  · rw [hrun] at hlimits
    have hlog : t.log = s.log := hlimits.2
    obtain ⟨e, he⟩ := Option.ne_none_iff_exists'.mp hfailure
    have hblock : rtBlockOn c CallKind.algod.operation call t
        = (.err (.text s!"failed to build tokio runtime: {e}"), t.record (.unsent e)) := by
      unfold rtBlockOn Session.block
      rw [he]
    have hmapped := mapErr_apply (fun e : Error => Error.text s!"runtime error: {e.display}")
      (rtBlockOn c CallKind.algod.operation call) t
    rw [hblock] at hmapped
    refine ⟨_, _, (bind_of_ok hrun).trans hmapped, ?_⟩
    rw [World.record_sent, World.sent_congr hlog]
    exact List.append_nil _

theorem sendOnce_not_prevented (call : NodeCall α) (h : ¬ c.Prevents s) :
    (∃ w, ((sendOnce CallKind.algod.operation call).run c s).1 = .stop w) ∨
      ((sendOnce CallKind.algod.operation call).run c s).2.sent = s.sent ++ [call.request] := by
  have hlimits := applyRateLimit_triple c CallKind.algod.operation s s rfl
  rcases hrun : applyRateLimit c CallKind.algod.operation s with ⟨_ | e | w, t⟩
  · right
    rw [hrun] at hlimits
    have hlog : t.log = s.log := hlimits.2
    have hbuilt : c.env.runtimeFailure t.moment = none := by
      by_contra hfailure
      exact h (Or.inr ⟨t, hrun, hfailure⟩)
    show ((applyRateLimit c CallKind.algod.operation >>= fun _ => _) s).2.sent = _
    rw [bind_of_ok hrun, mapErr_snd, rtBlockOn_snd, World.record_sent, block_sent, if_pos hbuilt,
      World.sent_congr hlog]
    rfl
  · exact absurd (Or.inl ⟨e, by rw [hrun]⟩) h
  · exact Or.inl ⟨w, congrArg Prod.fst (bind_of_stop hrun)⟩

/-- A call whose first request is prevented fails without sending one. -/
theorem algodCall_prevented (call : NodeCall α) (h : c.Prevents s) :
    ∃ e t, (algodCall call).run c s = (.err e, t) ∧ t.sent = s.sent := by
  obtain ⟨e, t, hrun, hsent⟩ := sendOnce_prevented call h
  refine ⟨e, t, ?_, hsent⟩
  have hround : ∀ f : Except NodeError α → Proc World Error (ℕ ⊕ α),
      ((sendOnce CallKind.algod.operation call).run c >>= f) s = (.err e, t) :=
    fun f => bind_of_err hrun
  exact bind_of_err (hround _)

/-- A call whose first request is not prevented sends it, unless the thread never wakes up. -/
theorem algodCall_not_prevented (call : NodeCall α) (h : ¬ c.Prevents s) :
    (∃ w, ((algodCall call).run c s).1 = .stop w) ∨
      ∃ more, ((algodCall call).run c s).2.sent = s.sent ++ call.request :: more := by
  apply loop_ends
    (I := fun attempt t => (attempt = 0 ∧ t = s) ∨ ∃ more, t.sent = s.sent ++ call.request :: more)
    (Q := fun o t => (∃ w, o = .stop w) ∨ ∃ more, t.sent = s.sent ++ call.request :: more)
  · intro attempt t ht
    have hsent : (∃ w, ((sendOnce CallKind.algod.operation call).run c t).1 = .stop w) ∨
        ∃ more, ((sendOnce CallKind.algod.operation call).run c t).2.sent
          = s.sent ++ call.request :: more := by
      rcases ht with ⟨-, rfl⟩ | ⟨more, hmore⟩
      · rcases sendOnce_not_prevented call h with hstop | hfirst
        · exact Or.inl hstop
        · exact Or.inr ⟨[], hfirst⟩
      · obtain ⟨rs, hrs⟩ := ((sendOnce CallKind.algod.operation call) : Client _).sent_append c t
        refine Or.inr ⟨more ++ rs, ?_⟩
        rw [hrs, hmore, List.append_assoc]
        rfl
    show RoundEnds _ _ (((sendOnce CallKind.algod.operation call).run c >>= fun r => _) t)
    rw [bind_apply]
    rcases hrun : (sendOnce CallKind.algod.operation call).run c t with ⟨r | e | w, u⟩ <;>
      rw [hrun] at hsent
    · have hmore : ∃ more, u.sent = s.sent ++ call.request :: more :=
        hsent.resolve_left (by simp)
      cases r with
      | ok a => exact .done (Or.inr hmore)
      | error e =>
        dsimp only
        split_ifs
        · exact .next (Or.inr hmore)
        · exact .err (Or.inr hmore)
    · exact .err (Or.inr (hsent.resolve_left (by simp)))
    · exact .stop (Or.inl ⟨w, rfl⟩)
  · intro _ t _
    exact Or.inl ⟨.fuel, rfl⟩
  · exact Or.inl ⟨rfl, rfl⟩

/-- A request was sent, or the thread never wakes up to send it. -/
def Asked (s : World) (o : Outcome Error α) (t : World) : Prop :=
  (∃ w, o = .stop w) ∨ sentSince s t ≠ []

/-- What was sent before is still sent after more. -/
theorem sentSince_append (x : Client α) (c : Session) (s t : World)
    (h : ∃ rs, t.sent = s.sent ++ rs) :
    ∃ more, sentSince s (x.run c t).2 = sentSince s t ++ more := by
  obtain ⟨rs, hsent⟩ := h
  obtain ⟨more, hmore⟩ := x.sent_append c t
  refine ⟨more, ?_⟩
  rw [sentSince_of_sent hsent]
  apply sentSince_of_sent
  rw [hmore, hsent, List.append_assoc]

theorem Asked.bind {x : Client α} {g : α → Client β}
    (h : Asked s (x.run c s).1 (x.run c s).2) :
    Asked s ((x >>= g).run c s).1 ((x >>= g).run c s).2 := by
  have hsent := x.sent_append c s
  rw [Confined.run_bind, bind_apply]
  rcases hrun : x.run c s with ⟨a | e | w, t⟩ <;> rw [hrun] at h hsent
  · have hasked : sentSince s t ≠ [] := h.resolve_left (by simp)
    obtain ⟨more, hmore⟩ := sentSince_append (g a) c s t hsent
    right
    rw [hmore]
    exact List.append_ne_nil_of_left_ne_nil hasked more
  · exact Or.inr (h.resolve_left (by simp))
  · exact Or.inl ⟨w, rfl⟩

/-- A call whose first request is not prevented asks, whatever its error is called. -/
theorem context_asked (call : NodeCall α) (what : String) (h : ¬ c.Prevents s) :
    Asked s ((context what (algodCall call)).run c s).1
      ((context what (algodCall call)).run c s).2 := by
  have hcall := algodCall_not_prevented call h
  show Asked s (mapErr _ ((algodCall call).run c) s).1 (mapErr _ ((algodCall call).run c) s).2
  rw [mapErr_apply]
  have hsince : (∃ more, ((algodCall call).run c s).2.sent = s.sent ++ call.request :: more) →
      sentSince s ((algodCall call).run c s).2 ≠ [] := by
    rintro ⟨more, hmore⟩
    rw [sentSince_of_sent hmore]
    exact List.cons_ne_nil _ _
  rcases hrun : (algodCall call).run c s with ⟨a | e | w, t⟩ <;> rw [hrun] at hcall hsince
  · exact Or.inr (hsince (hcall.resolve_left (by simp)))
  · exact Or.inr (hsince (hcall.resolve_left (by simp)))
  · exact Or.inl ⟨w, rfl⟩

theorem context_prevented (call : NodeCall α) (what : String) (h : c.Prevents s) :
    ∃ e t, (context what (algodCall call)).run c s = (.err e, t) ∧ t.sent = s.sent := by
  obtain ⟨e, t, hrun, hsent⟩ := algodCall_prevented call h
  have hmapped := mapErr_apply (fun e : Error => Error.text s!"{what}: {e.display}")
    ((algodCall call).run c) s
  rw [hrun] at hmapped
  exact ⟨_, t, hmapped, hsent⟩

end BlockchainOps.Algo
