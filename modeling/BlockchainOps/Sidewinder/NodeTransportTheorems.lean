import BlockchainOps.Algo.Unreachable
import BlockchainOps.Lib.Calls
import BlockchainOps.Lib.Rounds
import BlockchainOps.Sidewinder.NodeTransport

/-!
# What a Sidewinder client sends, and what it makes of the answers

`send_run` gives every run of `send`: which requests are made, how long it pauses between them, and
how the last exchange decides the outcome. The methods are calls (`NodeCall`) whose runs follow from
it: a call makes one request, up to four times, and its result is read off the last exchange.
-/

namespace BlockchainOps.Sidewinder

open Effect Proc Algo

variable {ν : Type} {c : NodeSession ν} {operation : String} {request : HttpRequest}

/-! ## Error chains -/

/-- The marks do not hold the separator of a chain, and none of them starts with a space. -/
theorem nodeUnreachableMarks_separators :
    ∀ mark ∈ nodeUnreachableMarks.map String.toList,
      (mark ≠ [] ∧ ':' ∉ mark) ∧ mark ≠ [] ∧ mark.head? ≠ some ' ' := by decide

theorem looksUnreachable_iff (message : String) :
    looksUnreachable message = true ↔ Mentions nodeUnreachableMarks message.toList := by
  unfold looksUnreachable Mentions Text.Occurs
  rw [List.any_eq_true]
  constructor
  · intro h
    obtain ⟨mark, hmark, hcontains⟩ := h
    obtain ⟨pat, hpat, hwithin⟩ := (containsText_toLowercase message mark).mp hcontains
    rw [List.map_singleton, List.mem_singleton] at hpat
    exact ⟨mark.toList, List.mem_map_of_mem hmark, hpat ▸ hwithin⟩
  · intro h
    obtain ⟨pat, hpat, hwithin⟩ := h
    obtain ⟨mark, hmark, rfl⟩ := List.mem_map.mp hpat
    refine ⟨mark, hmark, (containsText_toLowercase message mark).mpr ?_⟩
    exact ⟨mark.toList, by simp, hwithin⟩

/-- A chain that a text is joined to looks unreachable if one of the two does. -/
theorem looksUnreachable_join (chain text : String) :
    looksUnreachable (chain ++ ": " ++ text) = true ↔
      looksUnreachable chain = true ∨ looksUnreachable text = true := by
  have hlower : (chain ++ ": " ++ text).toList.map Char.toLower
      = chain.toList.map Char.toLower ++ ':' :: ' ' :: text.toList.map Char.toLower := by
    simp [String.toList_append]
  rw [looksUnreachable_iff, looksUnreachable_iff, looksUnreachable_iff]
  unfold Mentions
  rw [hlower, Text.occurs_append_cons_iff fun m hm => (nodeUnreachableMarks_separators m hm).1,
    Text.occurs_cons_iff fun m hm => (nodeUnreachableMarks_separators m hm).2]

/-- A text that stands in another looks unreachable only if the other does. -/
theorem looksUnreachable_of_contains {chain text : String} (h : containsText chain text = true)
    (htext : looksUnreachable text = true) : looksUnreachable chain = true := by
  have hwithin : text.toList <:+: chain.toList := of_decide_eq_true h
  rw [looksUnreachable_iff] at htext ⊢
  obtain ⟨mark, hmark, hoccurs⟩ := htext
  exact ⟨mark, hmark, hoccurs.trans (hwithin.map Char.toLower)⟩

/-- A chain looks unreachable exactly when the error or one of its causes does, although a cause
whose text is already there is left out. -/
theorem looksUnreachable_causeChain (e : ErrorChain) :
    looksUnreachable (causeChain e) = true ↔
      ∃ cause ∈ e.error :: e.causes, looksUnreachable cause.text = true := by
  have hfold : ∀ (causes : List Cause) (chain : String),
      looksUnreachable (causes.foldl
        (fun chain cause =>
          if containsText chain cause.text then chain else chain ++ ": " ++ cause.text) chain)
        = true ↔
      looksUnreachable chain = true ∨ ∃ cause ∈ causes, looksUnreachable cause.text = true := by
    intro causes
    induction causes with
    | nil =>
      intro chain
      simp
    | cons cause causes ih =>
      intro chain
      rw [List.foldl_cons, ih]
      simp only [List.mem_cons, exists_eq_or_imp]
      by_cases hcontains : containsText chain cause.text = true
      · rw [if_pos hcontains]
        have habsorbed := looksUnreachable_of_contains hcontains
        constructor
        · exact fun h => h.elim Or.inl fun hrest => Or.inr (Or.inr hrest)
        · exact fun h => h.elim Or.inl fun h => h.elim (fun hcause => Or.inl (habsorbed hcause)) Or.inr
      · rw [if_neg hcontains, looksUnreachable_join, or_assoc]
  unfold causeChain
  rw [hfold]
  simp only [List.mem_cons, exists_eq_or_imp]

/-! ## Sending -/

/-- The client tries again after this exchange. -/
def NodeSession.retries (c : NodeSession ν) (x : Exchange) : Bool :=
  match c.result x with
  | .err (.transport msg) => looksUnreachable msg
  | _ => false

/-- What `send` returns when this exchange was its last. -/
def NodeSession.conclude (c : NodeSession ν) (operation : String) (x : Exchange) :
    Outcome Error (ℕ × Bytes) :=
  match c.result x with
  | .ok pair => .ok pair
  | .err (.identityRefused chain) => .err (.sidewinder (c.client.identityRefused operation chain))
  | .err (.localError e) => .err e
  | .err (.transport msg) =>
    if looksUnreachable msg then .err (.sidewinder (.unreachable operation msg))
    else .err (.text msg)
  | .stop w => .stop w

/-- How `send` ends, by its last exchange. -/
inductive Concludes (c : NodeSession ν) (operation : String) :
    Exchange → Outcome Error (ℕ × Bytes) → Prop
  | served (code : ℕ) (body : Bytes) :
    Concludes c operation (.served code body) (.ok (code, body))
  /-- Over mutual TLS the node sent the alert that refuses this client's identity. -/
  | refused {e : ErrorChain} (mutualTls : c.client.tls.isSome = true)
      (alert : refusedWithAccessDenied e (causeChain e) = true) :
      Concludes c operation (.failed e)
        (.err (.sidewinder (c.client.identityRefused operation (causeChain e))))
  /-- One of the causes looks like an unreachable host. -/
  | unreachable {e : ErrorChain} (retried : c.retries (.failed e) = true)
      (cause : ∃ cause ∈ e.error :: e.causes, looksUnreachable cause.text = true) :
      Concludes c operation (.failed e)
        (.err (.sidewinder (.unreachable operation (causeChain e))))
  | other {x : Exchange} (final : c.retries x = false)
      (unserved : ∀ code body, x ≠ .served code body) (message : String) :
      Concludes c operation x (.err (.text message))
  | stop {x : Exchange} (final : c.retries x = false)
      (unserved : ∀ code body, x ≠ .served code body) (why : Stop) :
      Concludes c operation x (.stop why)

theorem concludes (c : NodeSession ν) (operation : String) (x : Exchange) :
    Concludes c operation x (c.conclude operation x) := by
  cases x with
  | served code body => exact .served code body
  | noClient e => exact .other rfl (by simp) _
  | never => exact .stop rfl (by simp) _
  | noRuntime e =>
    unfold NodeSession.conclude
    rcases hinside : c.env.inRuntime with _ | _
    · have hresult : c.result (.noRuntime e)
          = .err (.localError (.text s!"failed to build tokio runtime: {e}")) := by
        simp [NodeSession.result, hinside]
      rw [hresult]
      exact .other (by simp [NodeSession.retries, hresult]) (by simp) _
    · have hresult : c.result (.noRuntime e)
          = .err (.localError (.text "rt_block_on thread panicked")) := by
        simp [NodeSession.result, hinside]
      rw [hresult]
      exact .other (by simp [NodeSession.retries, hresult]) (by simp) _
  | panicked =>
    unfold NodeSession.conclude
    rcases hinside : c.env.inRuntime with _ | _
    · have hresult : c.result .panicked = .stop .panic := by simp [NodeSession.result, hinside]
      rw [hresult]
      exact .stop (by simp [NodeSession.retries, hresult]) (by simp) _
    · have hresult : c.result .panicked
          = .err (.localError (.text "rt_block_on thread panicked")) := by
        simp [NodeSession.result, hinside]
      rw [hresult]
      exact .other (by simp [NodeSession.retries, hresult]) (by simp) _
  | failed e =>
    unfold NodeSession.conclude
    by_cases hrefused : (c.client.tls.isSome && refusedWithAccessDenied e (causeChain e)) = true
    · have hresult : c.result (.failed e) = .err (.identityRefused (causeChain e)) := by
        simp only [NodeSession.result, SendFailure.fromReqwest, if_pos hrefused]
      have hboth := Bool.and_eq_true_iff.mp hrefused
      rw [hresult]
      exact .refused hboth.1 hboth.2
    · have hresult : c.result (.failed e) = .err (.transport (causeChain e)) := by
        simp only [NodeSession.result, SendFailure.fromReqwest, if_neg hrefused]
      have hretries : c.retries (.failed e) = looksUnreachable (causeChain e) := by
        simp only [NodeSession.retries, hresult]
      rw [hresult]
      dsimp only
      split_ifs with hlooks
      · exact .unreachable (hretries.trans hlooks) ((looksUnreachable_causeChain e).mp hlooks)
      · exact .other (by rw [hretries]; simpa using hlooks) (by simp) _

/-- What makes a client want to try again: an exchange that failed with no refusal of its identity
and with a cause that looks like an unreachable host, wherever in the chain this cause stands. -/
theorem retries_iff (c : NodeSession ν) (x : Exchange) :
    c.retries x = true ↔ ∃ e, x = .failed e ∧
      ¬ (c.client.tls.isSome = true ∧ refusedWithAccessDenied e (causeChain e) = true) ∧
      ∃ cause ∈ e.error :: e.causes, looksUnreachable cause.text = true := by
  cases x with
  | failed e =>
    by_cases hrefused : (c.client.tls.isSome && refusedWithAccessDenied e (causeChain e)) = true
    · have hboth := Bool.and_eq_true_iff.mp hrefused
      simp only [NodeSession.retries, NodeSession.result, SendFailure.fromReqwest, if_pos hrefused]
      constructor
      · intro h
        exact absurd h (by decide)
      · rintro ⟨e', hsame, hnot, -⟩
        rw [Exchange.failed.inj hsame] at hboth
        exact absurd hboth hnot
    · simp only [NodeSession.retries, NodeSession.result, SendFailure.fromReqwest, if_neg hrefused]
      rw [looksUnreachable_causeChain]
      constructor
      · intro h
        exact ⟨e, rfl, fun hboth => hrefused (Bool.and_eq_true_iff.mpr hboth), h⟩
      · rintro ⟨e', hsame, -, hcause⟩
        rw [Exchange.failed.inj hsame]
        exact hcause
  | served code body =>
    exact iff_of_false (by simp [NodeSession.retries, NodeSession.result]) (by simp)
  | noRuntime e =>
    refine iff_of_false ?_ (by simp)
    rcases hinside : c.env.inRuntime <;> simp [NodeSession.retries, NodeSession.result, hinside]
  | noClient e => exact iff_of_false (by simp [NodeSession.retries, NodeSession.result]) (by simp)
  | panicked =>
    refine iff_of_false ?_ (by simp)
    rcases hinside : c.env.inRuntime <;> simp [NodeSession.retries, NodeSession.result, hinside]
  | never => exact iff_of_false (by simp [NodeSession.retries, NodeSession.result]) (by simp)

/-- What is outside the client after `k` attempts with the same request. -/
def NodeSession.nodeAfter (c : NodeSession ν) (request : HttpRequest) (s : ν) : ℕ → ν
  | 0 => s
  | k + 1 => (c.env.exchange c.client.tls request (c.nodeAfter request s k)).2

/-- Attempt `k`, counted from zero. -/
def NodeSession.exchangeAt (c : NodeSession ν) (request : HttpRequest) (s : ν) (k : ℕ) : Exchange :=
  (c.env.exchange c.client.tls request (c.nodeAfter request s k)).1

/-- The log of the first `k` attempts, each with the pause after it. -/
def NodeSession.trace (c : NodeSession ν) (request : HttpRequest) (s : ν) : ℕ → List NetEvent
  | 0 => []
  | k + 1 => c.trace request s k ++ [.tried request (c.exchangeAt request s k),
      .slept (retryDelay k)]

/-- The world in which attempt `k` is made. -/
def NodeSession.worldAt (c : NodeSession ν) (request : HttpRequest) (w : NetWorld ν) (k : ℕ) :
    NetWorld ν :=
  { node := c.nodeAfter request w.node k, log := w.log ++ c.trace request w.node k }

/-- The world that attempt `k` leaves. -/
def NodeSession.worldAfter (c : NodeSession ν) (request : HttpRequest) (w : NetWorld ν) (k : ℕ) :
    NetWorld ν where
  node := c.nodeAfter request w.node (k + 1)
  log := w.log ++ c.trace request w.node k ++ [.tried request (c.exchangeAt request w.node k)]

/-- The world after one attempt. -/
def NodeSession.tried (c : NodeSession ν) (request : HttpRequest) (w : NetWorld ν) : NetWorld ν where
  node := (c.env.exchange c.client.tls request w.node).2
  log := w.log ++ [.tried request (c.env.exchange c.client.tls request w.node).1]

theorem sendOnce_apply (w : NetWorld ν) :
    sendOnce c request w
      = (c.result (c.env.exchange c.client.tls request w.node).1, c.tried request w) := rfl

theorem tried_worldAt (w : NetWorld ν) (k : ℕ) :
    c.tried request (c.worldAt request w k) = c.worldAfter request w k := rfl

theorem worldAt_succ (w : NetWorld ν) (k : ℕ) :
    c.worldAt request w (k + 1) = { c.worldAfter request w k with
      log := (c.worldAfter request w k).log ++ [.slept (retryDelay k)] } := by
  show NetWorld.mk _ (w.log ++ (c.trace request w.node k ++ [_, _])) = NetWorld.mk _ _
  unfold NodeSession.worldAfter
  simp

/-- A round either pauses for the next attempt or ends with what the exchange calls for. -/
theorem sendRound_cases (c : NodeSession ν) (operation : String) (request : HttpRequest) (k : ℕ)
    (w : NetWorld ν) {x : Exchange} (hx : (c.env.exchange c.client.tls request w.node).1 = x) :
    (c.retries x = true ∧ k < maxSendRetries ∧
      sendRound c operation request k w = (.ok (.inl (k + 1)),
        { c.tried request w with log := (c.tried request w).log ++ [.slept (retryDelay k)] })) ∨
    ((c.retries x = true → maxSendRetries ≤ k) ∧
      sendRound c operation request k w
        = ((c.conclude operation x).map Sum.inr, c.tried request w)) := by
  have hattempt : (Proc.attempt (sendOnce c request) : Proc (NetWorld ν) Error _) w
      = match c.result x with
        | .ok a => (.ok (.ok a), c.tried request w)
        | .err e => (.ok (.error e), c.tried request w)
        | .stop why => (.stop why, c.tried request w) := by
    unfold Proc.attempt
    rw [sendOnce_apply, hx]
    rcases c.result x with _ | _ | _ <;> rfl
  unfold sendRound NodeSession.retries NodeSession.conclude
  rw [bind_apply, hattempt]
  rcases c.result x with pair | (chain | msg | e) | why
  case ok => exact Or.inr ⟨by simp, rfl⟩
  case err.identityRefused => exact Or.inr ⟨by simp, rfl⟩
  case err.localError => exact Or.inr ⟨by simp, rfl⟩
  case stop => exact Or.inr ⟨by simp, rfl⟩
  case err.transport =>
    by_cases hlooks : looksUnreachable msg = true
    · by_cases hk : k < maxSendRetries
      · refine Or.inl ⟨hlooks, hk, ?_⟩
        dsimp only
        rw [if_pos ⟨hk, hlooks⟩]
        rfl
      · refine Or.inr ⟨fun _ => by omega, ?_⟩
        dsimp only
        rw [if_neg fun h => hk h.1, if_pos hlooks, if_pos hlooks]
        rfl
    · refine Or.inr ⟨fun h => absurd h hlooks, ?_⟩
      dsimp only
      rw [if_neg fun h => hlooks h.2, if_neg hlooks, if_neg hlooks]
      rfl

/-- A round that ends the loop does not go on. -/
theorem map_inr_ne_inl {o : Outcome Error (ℕ × Bytes)} {k : ℕ} : o.map Sum.inr ≠ .ok (.inl k) := by
  rcases o with _ | _ | _ <;> simp

/-- A round goes on to the next attempt exactly if it is not the fourth, and its exchange failed
with no refusal of the client's identity and with a cause that looks like an unreachable host,
wherever in the chain this cause stands. -/
theorem sendRound_retries_iff (c : NodeSession ν) (operation : String) (request : HttpRequest)
    (k : ℕ) (w : NetWorld ν) :
    (∃ next, (sendRound c operation request k w).1 = .ok (.inl next)) ↔
      k < maxSendRetries ∧ ∃ e, (c.env.exchange c.client.tls request w.node).1 = .failed e ∧
        ¬ (c.client.tls.isSome = true ∧ refusedWithAccessDenied e (causeChain e) = true) ∧
        ∃ cause ∈ e.error :: e.causes, looksUnreachable cause.text = true := by
  rw [← retries_iff]
  rcases sendRound_cases c operation request k w rfl with ⟨hretry, hk, hnext⟩ | ⟨hend, hlast⟩
  · rw [hnext]
    exact iff_of_true ⟨k + 1, rfl⟩ ⟨hk, hretry⟩
  · rw [hlast]
    refine iff_of_false ?_ fun h => absurd (hend h.2) (not_le.mpr h.1)
    rintro ⟨next, hnext⟩
    exact map_inr_ne_inl hnext

/-- Rounds that all went on made one attempt each, and each is to be retried. -/
theorem countsTo_worldAt {w s t : NetWorld ν} {k n : ℕ}
    (h : CountsTo (sendRound c operation request) k s n t) (hs : s = c.worldAt request w k) :
    t = c.worldAt request w n ∧
      ∀ i, k ≤ i → i < n → c.retries (c.exchangeAt request w.node i) = true := by
  induction h with
  | here k s => exact ⟨hs, fun i hle hlt => by omega⟩
  | @next k n s s' t hround hrest ih =>
    rw [hs] at hround
    rcases sendRound_cases c operation request k (c.worldAt request w k) rfl with
      ⟨hretry, -, hnext⟩ | ⟨-, hend⟩
    · rw [hnext, tried_worldAt, ← worldAt_succ] at hround
      obtain ⟨ht, hall⟩ := ih (Prod.mk.inj hround).2.symm
      refine ⟨ht, fun i hle hlt => ?_⟩
      rcases Nat.eq_or_lt_of_le hle with heq | hgt
      · rw [← heq]
        exact hretry
      · exact hall i hgt hlt
    · rw [hend] at hround
      exact absurd (Prod.mk.inj hround).1 map_inr_ne_inl

/-- Every run of `send`: one request is made up to four times, with pauses of one, two and four
seconds between the attempts. It is made again exactly while the node looks unreachable, and the
last exchange decides what is returned. -/
theorem send_run (c : NodeSession ν) (operation : String) (request : HttpRequest)
    (w : NetWorld ν) :
    ∃ n ≤ maxSendRetries,
      (∀ k < n, c.retries (c.exchangeAt request w.node k) = true) ∧
      (c.retries (c.exchangeAt request w.node n) = true → n = maxSendRetries) ∧
      send c operation request w
        = (c.conclude operation (c.exchangeAt request w.node n), c.worldAfter request w n) := by
  have hstep : ∀ k s g t, sendRound c operation request k s = (.ok (.inl g), t) →
      k < maxSendRetries ∧ g = k + 1 := by
    intro k s g t hround
    rcases sendRound_cases c operation request k s rfl with ⟨-, hk, hnext⟩ | ⟨-, hend⟩
    · rw [hnext] at hround
      exact ⟨hk, (Sum.inl.inj (Outcome.ok.inj (Prod.mk.inj hround).1)).symm⟩
    · rw [hend] at hround
      exact absurd (Prod.mk.inj hround).1 map_inr_ne_inl
  have hzero : w = c.worldAt request w 0 := by
    unfold NodeSession.worldAt NodeSession.trace
    rw [List.append_nil]
    rfl
  obtain ⟨n, t, hn, hcounts, hends⟩ := loop_counted hstep maxSendRetries 0 w (Nat.zero_add _)
  obtain ⟨ht, hretried⟩ := countsTo_worldAt hcounts hzero
  rw [ht] at hends
  refine ⟨n, hn, fun k hk => hretried k (Nat.zero_le k) hk, ?_⟩
  rcases sendRound_cases c operation request n (c.worldAt request w n) rfl with
    ⟨-, -, hnext⟩ | ⟨hlast, hend⟩
  · rw [hnext] at hends
    cases hends
  · refine ⟨fun h => Nat.le_antisymm hn (hlast h), ?_⟩
    rw [hend, tried_worldAt] at hends
    exact hends.eq_of_map_inr

end BlockchainOps.Sidewinder
