import Mathlib.Logic.Function.Basic
import BlockchainOps.Lib.Effect
import BlockchainOps.Lib.Machine
import BlockchainOps.Tls.Verify

/-!
# Handshakes that share a verifier

All connections of one configuration share its verifier, which keeps the address of the
identity it authenticated in one cell. In each handshake the TLS library first has the verifier
check the certificate, then the signature over the transcript that proves possession of the leaf
key. When both have succeeded the library goes on to complete the handshake, or fails after all.
Handshakes interleave in any order.

The verifier writes the cell when it accepts the certificate, before possession is proved. What
`authenticatedPeer` names is therefore decided by the order in which certificates are presented, and
handshakes completed, on all connections (`authenticatedPeer_eq_iff`).
-/

namespace BlockchainOps.Tls

open Effect Proc

/-! ## The verifiers -/

/-- What the TLS library reports for a refused certificate. -/
inductive RustlsError
  | applicationVerificationFailure
  | general (message : String)
deriving DecidableEq, Repr

/-- The state of an `IdentityClientVerifier` or `IdentityServerVerifier`: the role it requires and
the cell. The cell's mutex guards a plain assignment and a clone, neither of which panics. -/
structure IdentityVerifier where
  requiredRole : Option Role
  authenticated : Option String
deriving DecidableEq, Repr

/-- A verifier that admits any role. -/
def IdentityVerifier.new : IdentityVerifier := ⟨none, none⟩

/-- A verifier that admits exactly `role`. -/
def IdentityVerifier.newForRole (role : Role) : IdentityVerifier := ⟨some role, none⟩

/-- The address authenticated on the last successful handshake, as the source describes it. -/
def IdentityVerifier.authenticatedPeer (v : IdentityVerifier) : Option String := v.authenticated

/-- Map a failed client-identity check to the error that carries the right alert. -/
def clientRefusal : VerifyError → RustlsError
  | .notAuthorized _ => .applicationVerificationFailure
  | other => .general other.display

/-- Map a failed server-identity check. -/
def serverRefusal (e : VerifyError) : RustlsError := .general e.display

/-- Check a certificate against the authority as it is now, and keep the identity's address. -/
def verifyPeerCert (refusal : VerifyError → RustlsError) (p : IdentityPrims)
    (authority : MembershipAuthority) (endEntity : Bytes) :
    Proc IdentityVerifier RustlsError Unit := do
  let v ← get
  let address ← ofExcept
    ((verifyIdentityCertInner p endEntity authority v.requiredRole).mapError refusal)
  modify fun v => { v with authenticated := some address }

def verifyClientCert := verifyPeerCert clientRefusal

def verifyServerCert := verifyPeerCert serverRefusal

/-! ## The handshakes -/

inductive TlsVersion
  | tls12
  | tls13
deriving DecidableEq, Repr

/-- What the handshakes take from other packages: the identity check's parts, and the check of a
handshake signature on a message under a certificate's leaf key. -/
structure HandshakePrims extends IdentityPrims where
  verifyTlsSignature : TlsVersion → Bytes → Bytes → Bytes → Bool

/-- Where a connection stands in its handshake. -/
inductive Handshake
  | fresh
  | certified (cert : Bytes) (address : String)
  /-- Both checks of the verifier have succeeded. -/
  | proved (address : String)
  | completed (address : String)
  | failed
deriving DecidableEq, Repr

/-- The identity whose certificate was accepted in a handshake that has not ended. -/
def Handshake.underWay : Handshake → Option String
  | .certified _ address => some address
  | .proved address => some address
  | _ => none

/-- The shared verifier, the connections, and the identities whose handshake completed, latest
first. -/
structure TlsState where
  verifier : IdentityVerifier
  connections : ℕ → Handshake
  completed : List String

/-- A fresh configuration whose verifier requires a role, or none. -/
def TlsState.init (required : Option Role) : TlsState := ⟨⟨required, none⟩, fun _ => .fresh, []⟩

/-- A step of one connection: the peer presents a certificate, checked against the authority as it
is at that moment; the peer presents a handshake signature; the handshake completes; or the
connection is dropped. -/
inductive TlsAction
  | presentCert (c : ℕ) (authority : MembershipAuthority) (cert : Bytes)
  | presentSignature (c : ℕ) (version : TlsVersion) (message signature : Bytes)
  | complete (c : ℕ)
  | abort (c : ℕ)

/-- Move the connection `c`. -/
def TlsState.move (s : TlsState) (c : ℕ) (h : Handshake) : TlsState :=
  { s with connections := Function.update s.connections c h }

/-- The connections of one configuration whose verifier refuses with `refusal`. -/
def tlsMachine (refusal : VerifyError → RustlsError) (p : HandshakePrims) :
    Machine TlsState TlsAction where
  step s
    | .presentCert c authority cert =>
      match s.connections c with
      | .fresh =>
        let checked := verifyPeerCert refusal p.toIdentityPrims authority cert s.verifier
        let identity := verifyIdentityCertInner p.toIdentityPrims cert authority
          s.verifier.requiredRole
        match checked.1, identity with
        | .ok (), .ok address =>
          some { s.move c (.certified cert address) with verifier := checked.2 }
        | _, _ => some { s.move c .failed with verifier := checked.2 }
      | _ => none
    | .presentSignature c version message signature =>
      match s.connections c with
      | .certified cert address =>
        if p.verifyTlsSignature version message cert signature then
          some (s.move c (.proved address))
        else some (s.move c .failed)
      | _ => none
    | .complete c =>
      match s.connections c with
      | .proved address =>
        some { s.move c (.completed address) with completed := address :: s.completed }
      | _ => none
    | .abort c =>
      match s.connections c with
      | .fresh | .certified _ _ | .proved _ => some (s.move c .failed)
      | _ => none

variable {refusal : VerifyError → RustlsError} {p : HandshakePrims}

theorem verifyPeerCert_apply (refusal : VerifyError → RustlsError) (p : IdentityPrims)
    (authority : MembershipAuthority) (cert : Bytes) (v : IdentityVerifier) :
    verifyPeerCert refusal p authority cert v
      = match verifyIdentityCertInner p cert authority v.requiredRole with
        | .ok address => (.ok (), { v with authenticated := some address })
        | .error e => (.err (refusal e), v) := by
  unfold verifyPeerCert
  rw [bind_of_ok (get_apply v)]
  rcases verifyIdentityCertInner p cert authority v.requiredRole with e | address <;> rfl

/-- The steps of a connection, by what they did. -/
theorem tlsMachine_step_cases {s t : TlsState} {a : TlsAction}
    (h : (tlsMachine refusal p).step s a = some t) :
    (∃ c authority cert address, a = .presentCert c authority cert ∧ s.connections c = .fresh ∧
      verifyIdentityCertInner p.toIdentityPrims cert authority s.verifier.requiredRole
        = .ok address ∧
      t = { s.move c (.certified cert address) with
            verifier := { s.verifier with authenticated := some address } }) ∨
    (∃ c version message signature cert address,
      a = .presentSignature c version message signature ∧
      s.connections c = .certified cert address ∧
      p.verifyTlsSignature version message cert signature = true ∧
      t = s.move c (.proved address)) ∨
    (∃ c address, a = .complete c ∧ s.connections c = .proved address ∧
      t = { s.move c (.completed address) with completed := address :: s.completed }) ∨
    ∃ c, ((∃ authority cert e, a = .presentCert c authority cert ∧ s.connections c = .fresh ∧
        verifyIdentityCertInner p.toIdentityPrims cert authority s.verifier.requiredRole
          = .error e) ∨
      (∃ version message signature cert address,
        a = .presentSignature c version message signature ∧
        s.connections c = .certified cert address ∧
        p.verifyTlsSignature version message cert signature = false) ∨
      (a = .abort c ∧ s.connections c ≠ .failed ∧
        ∀ address, s.connections c ≠ .completed address)) ∧
      t = s.move c .failed := by
  rcases a with ⟨c, authority, cert⟩ | ⟨c, version, message, signature⟩ | c | c
  · simp only [tlsMachine] at h
    rcases hc : s.connections c with _ | ⟨cert', address⟩ | address | address | _ <;>
      simp only [hc] at h
    case fresh =>
      rw [verifyPeerCert_apply] at h
      rcases hid : verifyIdentityCertInner p.toIdentityPrims cert authority
        s.verifier.requiredRole with e | address <;> simp only [hid] at h
      · exact Or.inr (Or.inr (Or.inr ⟨c, Or.inl ⟨authority, cert, e, rfl, hc, hid⟩,
          (Option.some.inj h).symm⟩))
      · exact Or.inl ⟨c, authority, cert, address, rfl, hc, hid, (Option.some.inj h).symm⟩
    all_goals exact absurd h (by simp)
  · simp only [tlsMachine] at h
    rcases hc : s.connections c with _ | ⟨cert, address⟩ | address | address | _ <;>
      simp only [hc] at h
    case certified =>
      split_ifs at h with hsig
      · exact Or.inr (Or.inl ⟨c, version, message, signature, cert, address, rfl, hc, hsig,
          (Option.some.inj h).symm⟩)
      · exact Or.inr (Or.inr (Or.inr ⟨c, Or.inr (Or.inl ⟨version, message, signature, cert, address,
          rfl, hc, by simpa using hsig⟩), (Option.some.inj h).symm⟩))
    all_goals exact absurd h (by simp)
  · simp only [tlsMachine] at h
    rcases hc : s.connections c with _ | ⟨cert, address⟩ | address | address | _ <;>
      simp only [hc] at h
    case proved => exact Or.inr (Or.inr (Or.inl ⟨c, address, rfl, hc, (Option.some.inj h).symm⟩))
    all_goals exact absurd h (by simp)
  · simp only [tlsMachine] at h
    rcases hc : s.connections c with _ | ⟨cert, address⟩ | address | address | _ <;>
      simp only [hc] at h
    case completed => exact absurd h (by simp)
    case failed => exact absurd h (by simp)
    all_goals
      exact Or.inr (Or.inr (Or.inr ⟨c, Or.inr (Or.inr ⟨rfl, by simp [hc], by simp [hc]⟩),
        (Option.some.inj h).symm⟩))

theorem TlsState.move_connections (s : TlsState) (c c' : ℕ) (h : Handshake) :
    (s.move c h).connections c' = if c' = c then h else s.connections c' := by
  show Function.update s.connections c h c' = _
  rw [Function.update_apply]

/-! ## What the cell names -/

/-- The connection and the identity of a certificate that is presented and accepted. -/
def TlsAction.accepts (p : IdentityPrims) (required : Option Role) : TlsAction → Option (ℕ × String)
  | .presentCert c authority cert =>
    match verifyIdentityCertInner p cert authority required with
    | .ok address => some (c, address)
    | .error _ => none
  | _ => none

/-- The connection whose handshake completes. -/
def TlsAction.completes : TlsAction → Option ℕ
  | .complete c => some c
  | _ => none

/-- The steps end with the right name in the cell: the certificate that was accepted last, on
whichever connection, proves the identity that was accepted on the connection whose handshake
completed last. Where no handshake has completed, no certificate was accepted. -/
def NamesLastCompleted (p : IdentityPrims) (required : Option Role) (as : List TlsAction) : Prop :=
  let accepted := as.filterMap (TlsAction.accepts p required)
  match (as.filterMap TlsAction.completes).getLast? with
  | none => accepted = []
  | some c => ∃ c' address, accepted.getLast? = some (c', address) ∧ (c, address) ∈ accepted

/-- What the steps `as` have left: the cell holds the identity accepted last, a connection under way
or completed has the identity that was accepted on it, and the identities of the completed
handshakes are recorded in their order. -/
structure LeftBy (p : IdentityPrims) (required : Option Role) (as : List TlsAction)
    (s : TlsState) : Prop where
  requiredRole : s.verifier.requiredRole = required
  cell : s.verifier.authenticated
    = ((as.filterMap (TlsAction.accepts p required)).getLast?).map Prod.snd
  fresh : ∀ c address, s.connections c = .fresh →
    (c, address) ∉ as.filterMap (TlsAction.accepts p required)
  identity : ∀ c address, ((s.connections c).underWay = some address ∨
      s.connections c = .completed address) → ∀ address',
    (c, address') ∈ as.filterMap (TlsAction.accepts p required) ↔ address' = address
  completed : match (as.filterMap TlsAction.completes).getLast? with
    | none => s.completed = []
    | some c => ∃ address, s.connections c = .completed address ∧ s.completed.head? = some address

section LeftBy

variable {required : Option Role} {as : List TlsAction} {s : TlsState} {a : TlsAction} {c : ℕ}
  {h : Handshake}

theorem LeftBy.init (p : IdentityPrims) (required : Option Role) :
    LeftBy p required [] (.init required) where
  requiredRole := rfl
  cell := rfl
  fresh := fun c address _ hmem => absurd hmem List.not_mem_nil
  identity := fun c address hc => by simp [TlsState.init, Handshake.underWay] at hc
  completed := rfl

/-- A step that accepts nothing and completes nothing moves a connection on, or ends it. -/
theorem LeftBy.move (hleft : LeftBy p.toIdentityPrims required as s)
    (haccepts : a.accepts p.toIdentityPrims required = none) (hcompletes : a.completes = none)
    (hopen : ∀ address, s.connections c ≠ .completed address) (hfresh : h ≠ .fresh)
    (hname : ∀ address, h.underWay = some address ∨ h = .completed address →
      (s.connections c).underWay = some address) :
    LeftBy p.toIdentityPrims required (as ++ [a]) (s.move c h) := by
  have haccepted : (as ++ [a]).filterMap (TlsAction.accepts p.toIdentityPrims required)
      = as.filterMap (TlsAction.accepts p.toIdentityPrims required) := by
    rw [List.filterMap_append]
    simp [haccepts]
  have hcompleted : (as ++ [a]).filterMap TlsAction.completes
      = as.filterMap TlsAction.completes := by
    rw [List.filterMap_append]
    simp [hcompletes]
  refine ⟨hleft.requiredRole, ?_, ?_, ?_, ?_⟩
  · rw [haccepted]
    exact hleft.cell
  · intro c' address hc'
    rw [TlsState.move_connections] at hc'
    rw [haccepted]
    by_cases hcc : c' = c
    · rw [if_pos hcc] at hc'
      exact absurd hc' hfresh
    · rw [if_neg hcc] at hc'
      exact hleft.fresh c' address hc'
  · intro c' address hc'
    rw [TlsState.move_connections] at hc'
    rw [haccepted]
    by_cases hcc : c' = c
    · rw [if_pos hcc] at hc'
      exact hleft.identity c' address (Or.inl (hcc ▸ hname address hc'))
    · rw [if_neg hcc] at hc'
      exact hleft.identity c' address hc'
  · rw [hcompleted]
    have hlast := hleft.completed
    rcases hlast' : (as.filterMap TlsAction.completes).getLast? with _ | c₀ <;> rw [hlast'] at hlast
    · exact hlast
    · obtain ⟨address, hc₀, hhead⟩ := hlast
      refine ⟨address, ?_, hhead⟩
      have hne : c₀ ≠ c := fun heq => hopen address (heq ▸ hc₀)
      rw [TlsState.move_connections, if_neg hne]
      exact hc₀

/-- A certificate that is accepted on a fresh connection is named by the cell. -/
theorem LeftBy.accept {authority : MembershipAuthority} {cert : Bytes} {address : String}
    (hleft : LeftBy p.toIdentityPrims required as s) (hc : s.connections c = .fresh)
    (hverified : verifyIdentityCertInner p.toIdentityPrims cert authority s.verifier.requiredRole
      = .ok address) :
    LeftBy p.toIdentityPrims required (as ++ [TlsAction.presentCert c authority cert])
      { s.move c (.certified cert address) with
        verifier := { s.verifier with authenticated := some address } } := by
  rw [hleft.requiredRole] at hverified
  have haccepted : (as ++ [TlsAction.presentCert c authority cert]).filterMap
      (TlsAction.accepts p.toIdentityPrims required)
        = as.filterMap (TlsAction.accepts p.toIdentityPrims required) ++ [(c, address)] := by
    rw [List.filterMap_append]
    simp [TlsAction.accepts, hverified]
  have hcompleted : (as ++ [TlsAction.presentCert c authority cert]).filterMap TlsAction.completes
      = as.filterMap TlsAction.completes := by
    rw [List.filterMap_append]
    simp [TlsAction.completes]
  have hmoved : ∀ c', ({ s.move c (.certified cert address) with
      verifier := { s.verifier with authenticated := some address } } : TlsState).connections c'
        = if c' = c then .certified cert address else s.connections c' :=
    fun c' => s.move_connections c c' _
  refine ⟨hleft.requiredRole, ?_, ?_, ?_, ?_⟩
  · rw [haccepted, List.getLast?_concat]
    rfl
  · intro c' address' hc' hmem
    rw [hmoved] at hc'
    split_ifs at hc' with hcc
    rw [haccepted, List.mem_append, List.mem_singleton] at hmem
    rcases hmem with hold | hnew
    · exact hleft.fresh c' address' hc' hold
    · exact hcc (Prod.mk.inj hnew).1
  · intro c' address' hc' address''
    rw [hmoved] at hc'
    rw [haccepted, List.mem_append, List.mem_singleton]
    by_cases hcc : c' = c
    · rw [if_pos hcc] at hc'
      obtain rfl : address = address' := by simpa [Handshake.underWay] using hc'
      rw [hcc]
      constructor
      · rintro (hold | hnew)
        · exact absurd hold (hleft.fresh c address'' hc)
        · exact (Prod.mk.inj hnew).2
      · rintro rfl
        exact Or.inr rfl
    · rw [if_neg hcc] at hc'
      rw [← hleft.identity c' address' hc' address'']
      constructor
      · rintro (hold | hnew)
        · exact hold
        · exact absurd (Prod.mk.inj hnew).1 hcc
      · exact Or.inl
  · rw [hcompleted]
    have hlast := hleft.completed
    rcases hlast' : (as.filterMap TlsAction.completes).getLast? with _ | c₀ <;> rw [hlast'] at hlast
    · exact hlast
    · obtain ⟨address', hc₀, hhead⟩ := hlast
      refine ⟨address', ?_, hhead⟩
      have hne : c₀ ≠ c := by
        rintro rfl
        rw [hc] at hc₀
        exact absurd hc₀ (by simp)
      rw [hmoved, if_neg hne]
      exact hc₀

/-- A handshake that completes is the last one. -/
theorem LeftBy.complete {address : String} (hleft : LeftBy p.toIdentityPrims required as s)
    (hc : s.connections c = .proved address) :
    LeftBy p.toIdentityPrims required (as ++ [TlsAction.complete c])
      { s.move c (.completed address) with completed := address :: s.completed } := by
  have haccepted :
      (as ++ [TlsAction.complete c]).filterMap (TlsAction.accepts p.toIdentityPrims required)
      = as.filterMap (TlsAction.accepts p.toIdentityPrims required) := by
    rw [List.filterMap_append]
    simp [TlsAction.accepts]
  have hcompleted : (as ++ [TlsAction.complete c]).filterMap TlsAction.completes
      = as.filterMap TlsAction.completes ++ [c] := by
    rw [List.filterMap_append]
    simp [TlsAction.completes]
  have hmoved : ∀ c', ({ s.move c (.completed address) with
      completed := address :: s.completed } : TlsState).connections c'
        = if c' = c then .completed address else s.connections c' :=
    fun c' => s.move_connections c c' _
  refine ⟨hleft.requiredRole, ?_, ?_, ?_, ?_⟩
  · rw [haccepted]
    exact hleft.cell
  · intro c' address' hc'
    rw [hmoved] at hc'
    split_ifs at hc'
    rw [haccepted]
    exact hleft.fresh c' address' hc'
  · intro c' address' hc'
    rw [hmoved] at hc'
    rw [haccepted]
    by_cases hcc : c' = c
    · rw [if_pos hcc] at hc'
      obtain rfl : address = address' := by simpa [Handshake.underWay] using hc'
      exact hleft.identity c' address (Or.inl (by rw [hcc, hc]; rfl))
    · rw [if_neg hcc] at hc'
      exact hleft.identity c' address' hc'
  · rw [hcompleted, List.getLast?_concat]
    exact ⟨address, by rw [hmoved, if_pos rfl], rfl⟩

theorem LeftBy.step {t : TlsState} (hleft : LeftBy p.toIdentityPrims required as s)
    (hstep : (tlsMachine refusal p).step s a = some t) :
    LeftBy p.toIdentityPrims required (as ++ [a]) t := by
  rcases tlsMachine_step_cases hstep with ⟨c, authority, cert, address, rfl, hc, hverified, rfl⟩ |
    ⟨c, version, message, signature, cert, address, rfl, hc, -, rfl⟩ | ⟨c, address, rfl, hc, rfl⟩ |
    ⟨c, hends, rfl⟩
  · exact hleft.accept hc hverified
  · refine hleft.move rfl rfl (by simp [hc]) (by simp) fun address' h => ?_
    rw [hc]
    simpa [Handshake.underWay] using h
  · exact hleft.complete hc
  · have hnone : ∀ address, (Handshake.failed.underWay = some address ∨
        Handshake.failed = .completed address) → (s.connections c).underWay = some address := by
      intro address h
      simp [Handshake.underWay] at h
    rcases hends with ⟨authority, cert, e, rfl, hc, herror⟩ |
      ⟨version, message, signature, cert, address, rfl, hc, -⟩ | ⟨rfl, -, hopen⟩
    · rw [hleft.requiredRole] at herror
      exact hleft.move (by simp [TlsAction.accepts, herror]) rfl (by simp [hc]) (by simp) hnone
    · exact hleft.move rfl rfl (by simp [hc]) (by simp) hnone
    · exact hleft.move rfl rfl hopen (by simp) hnone

/-- The state of a run, from its steps. -/
theorem leftBy_exec (h : (tlsMachine refusal p).exec as (.init required) = some s) :
    LeftBy p.toIdentityPrims required as s := by
  induction as using List.reverseRecOn generalizing s with
  | nil =>
    rw [← Option.some.inj h]
    exact .init _ required
  | append_singleton as a ih =>
    obtain ⟨r, hrun, hstep⟩ := Machine.exec_concat h
    exact (ih hrun).step hstep

end LeftBy

/-! ## Handshakes one at a time -/

/-- No other handshake is under way when a certificate is presented, and every peer whose
certificate is accepted goes on to prove its leaf key and to complete the handshake. -/
def Undisturbed (p : HandshakePrims) (s : TlsState) : TlsAction → Prop
  | .presentCert _ _ _ => ∀ c, (s.connections c).underWay = none
  | .presentSignature c version message signature => ∀ cert address,
      s.connections c = .certified cert address →
        p.verifyTlsSignature version message cert signature = true
  | .complete _ => True
  | .abort c => s.connections c = .fresh

/-- Handshakes made one at a time: at most one is under way, and the cell has its identity; when
none is, the cell has that of the last completed handshake. -/
structure OneAtATime (s : TlsState) : Prop where
  underWay : ∀ c address, (s.connections c).underWay = some address →
    s.verifier.authenticatedPeer = some address ∧
      ∀ c' address', (s.connections c').underWay = some address' → c' = c
  quiet : (∀ c, (s.connections c).underWay = none) →
    s.verifier.authenticatedPeer = s.completed.head?

/-- A connection may move where its certificate stays as accepted as it was. -/
theorem OneAtATime.move {s : TlsState} (hone : OneAtATime s) {c : ℕ} {h : Handshake}
    (hname : h.underWay = (s.connections c).underWay) : OneAtATime (s.move c h) := by
  have hsame : ∀ c', ((s.move c h).connections c').underWay = (s.connections c').underWay := by
    intro c'
    rw [TlsState.move_connections]
    split_ifs with hcc
    · rw [hcc, hname]
    · rfl
  refine ⟨fun c' address hc' => ?_, fun hquiet => hone.quiet fun c' => ?_⟩
  · rw [hsame] at hc'
    obtain ⟨hcell, honly⟩ := hone.underWay c' address hc'
    exact ⟨hcell, fun c'' address' hc'' => honly c'' address' (by rwa [hsame] at hc'')⟩
  · rw [← hsame]
    exact hquiet c'

/-- An undisturbed step keeps the handshakes one at a time. -/
theorem OneAtATime.step {s t : TlsState} {a : TlsAction} (hone : OneAtATime s)
    (hok : Undisturbed p s a) (hstep : (tlsMachine refusal p).step s a = some t) :
    OneAtATime t := by
  rcases tlsMachine_step_cases hstep with ⟨c, authority, cert, address, rfl, hc, -, rfl⟩ |
    ⟨c, version, message, signature, cert, address, rfl, hc, -, rfl⟩ | ⟨c, address, rfl, hc, rfl⟩ |
    ⟨c, hends, rfl⟩
  · -- the accepted certificate is the only one under way
    have honly : ∀ c' address', ((s.move c (.certified cert address)).connections c').underWay
        = some address' → c' = c ∧ address' = address := by
      intro c' address' hc'
      rw [TlsState.move_connections] at hc'
      split_ifs at hc' with hcc
      · exact ⟨hcc, (Option.some.inj hc').symm⟩
      · rw [hok c'] at hc'
        exact absurd hc' (by simp)
    refine ⟨fun c' address' hc' => ?_, fun hquiet => ?_⟩
    · obtain ⟨rfl, rfl⟩ := honly c' address' hc'
      exact ⟨rfl, fun c'' address'' hc'' => (honly c'' address'' hc'').1⟩
    · have hhere := hquiet c
      have hmoved : (s.move c (.certified cert address)).connections c
          = .certified cert address := by
        rw [TlsState.move_connections, if_pos rfl]
      rw [show ({ s.move c (.certified cert address) with
          verifier := { s.verifier with authenticated := some address } } : TlsState).connections c
        = .certified cert address from hmoved] at hhere
      exact absurd hhere (by simp [Handshake.underWay])
  · exact hone.move (by rw [hc]; rfl)
  · -- the handshake that completes is the one that the cell names, and no other is under way
    obtain ⟨hcell, honly⟩ := hone.underWay c address (by rw [hc]; rfl)
    refine ⟨fun c' address' hc' => ?_, fun _ => hcell⟩
    have hc'' : ((s.move c (.completed address)).connections c').underWay = some address' := hc'
    rw [TlsState.move_connections] at hc''
    split_ifs at hc'' with hcc
    · exact absurd hc'' (by simp [Handshake.underWay])
    · exact absurd (honly c' address' hc'') hcc
  · rcases hends with ⟨authority, cert, e, rfl, hc, -⟩ |
      ⟨version, message, signature, cert, address, rfl, hc, hsig⟩ | ⟨rfl, -, -⟩
    · exact hone.move (by rw [hc]; rfl)
    · rw [hok cert address hc] at hsig
      exact absurd hsig (by simp)
    · have hfresh : s.connections c = .fresh := hok
      exact hone.move (by rw [hfresh]; rfl)

/-! ## The law -/

/-- In the state that any run has come to, the cell names the peer of the last completed handshake
exactly when the run ends with the right name in the cell. In particular it does whenever handshakes
are made one at a time, every peer proves its leaf key, and none is under way. -/
theorem authenticatedPeer_eq_iff (refusal : VerifyError → RustlsError) (p : HandshakePrims)
    (required : Option Role) :
    (∀ as s, (tlsMachine refusal p).exec as (.init required) = some s →
      (s.verifier.authenticatedPeer = s.completed.head? ↔
        NamesLastCompleted p.toIdentityPrims required as)) ∧
    ∀ s, (tlsMachine refusal p).Run (Undisturbed p) (.init required) s →
      (∀ c, (s.connections c).underWay = none) →
        s.verifier.authenticatedPeer = s.completed.head? := by
  constructor
  · intro as s h
    have hleft := leftBy_exec h
    have hcompleted := hleft.completed
    unfold NamesLastCompleted IdentityVerifier.authenticatedPeer
    rw [hleft.cell]
    dsimp only
    rcases hlast : (as.filterMap TlsAction.completes).getLast? with _ | c <;>
      rw [hlast] at hcompleted
    · rw [show s.completed = [] from hcompleted]
      simp
    · obtain ⟨address, hc, hhead⟩ := hcompleted
      have hname := hleft.identity c address (Or.inr hc)
      rw [hhead]
      constructor
      · intro hcell
        obtain ⟨⟨c', address'⟩, haccepted, rfl⟩ := Option.map_eq_some_iff.mp hcell
        exact ⟨c', address', haccepted, (hname address').mpr rfl⟩
      · rintro ⟨c', address', haccepted, hmem⟩
        rw [haccepted, (hname address').mp hmem]
        rfl
  · intro s h hquiet
    have hone : OneAtATime s := h.invariant (fun _ _ _ hs hok hstep => hs.step hok hstep)
      ⟨fun c address hc => by simp [TlsState.init, Handshake.underWay] at hc, fun _ => rfl⟩
    exact hone.quiet hquiet

/-- An identity check for a world of one-byte certificates: the byte is the identity, and only its
owner knows the leaf key. -/
def byteWorld : HandshakePrims where
  sha512_256 _ := []
  base32NopadEncode key := if key.head? = some 1 then "ONE" else "TWO"
  parseX509Certificate cert := .ok ⟨cert, [(sidewinderIdentityExtOidStr, cert)]⟩
  parseDerSignedKey der := .ok (der ++ List.replicate 31 0, List.replicate 64 0)
  isVerifyingKey _ := true
  verifyStrict _ _ _ := true
  verifyTlsSignature _ _ cert signature := decide (signature = cert)

/-- Every identity is a client. -/
def admitAll : MembershipAuthority where
  roleOf _ := some .client

/-- The peer with the certificate `cert` proves its leaf key on the connection `c`. -/
def proves (c : ℕ) (cert : Bytes) : List TlsAction := [.presentSignature c .tls13 [] cert]

/-- Two handshakes overlap, of identity one and then of identity two. Where that of identity two
completes last, the cell names it; where that of identity one does, the cell still names two. -/
theorem authenticatedPeer_eq_iff_overlapping :
    let both : List TlsAction := [.presentCert 0 admitAll [1], .presentCert 1 admitAll [2]]
      ++ proves 1 [2] ++ proves 0 [1]
    let seen (s : TlsState) := (s.verifier.authenticatedPeer, s.completed.head?)
    let machine := tlsMachine clientRefusal byteWorld
    (∃ s, machine.exec (both ++ [.complete 0, .complete 1]) (.init none) = some s ∧
      seen s = (some "TWO", some "TWO") ∧
      NamesLastCompleted byteWorld.toIdentityPrims none (both ++ [.complete 0, .complete 1])) ∧
    ∃ s, machine.exec (both ++ [.complete 1, .complete 0]) (.init none) = some s ∧
      seen s = (some "TWO", some "ONE") ∧
      ¬ NamesLastCompleted byteWorld.toIdentityPrims none (both ++ [.complete 1, .complete 0]) := by
  intro both seen machine
  have hlaw := (authenticatedPeer_eq_iff clientRefusal byteWorld none).1
  have htwo : (machine.exec (both ++ [.complete 0, .complete 1]) (.init none)).map seen
      = some (some "TWO", some "TWO") := by decide
  have hone : (machine.exec (both ++ [.complete 1, .complete 0]) (.init none)).map seen
      = some (some "TWO", some "ONE") := by decide
  obtain ⟨s, hs, hseen⟩ := Option.map_eq_some_iff.mp htwo
  obtain ⟨t, ht, htseen⟩ := Option.map_eq_some_iff.mp hone
  refine ⟨⟨s, hs, hseen, (hlaw _ s hs).mp ?_⟩, t, ht, htseen, fun hnames => ?_⟩
  · rw [(Prod.mk.inj hseen).1, (Prod.mk.inj hseen).2]
  · have hsame := (hlaw _ t ht).mpr hnames
    rw [(Prod.mk.inj htseen).1, (Prod.mk.inj htseen).2] at hsame
    exact absurd hsame (by decide)

/-- A peer that replays the certificate of identity two without its leaf key is refused at the
signature, but the cell names identity two: before any handshake completed, and after the
completed handshake of identity one. -/
theorem authenticatedPeer_names_replayed :
    let replay (c : ℕ) : List TlsAction :=
      [.presentCert c admitAll [2], .presentSignature c .tls13 [] []]
    let genuine : List TlsAction := [.presentCert 0 admitAll [1]] ++ proves 0 [1] ++ [.complete 0]
    let seen (s : TlsState) := (s.verifier.authenticatedPeer, s.completed.head?)
    let machine := tlsMachine clientRefusal byteWorld
    (machine.exec (replay 0) (.init none)).map seen = some (some "TWO", none) ∧
      (machine.exec (genuine ++ replay 1) (.init none)).map seen
        = some (some "TWO", some "ONE") ∧
      ¬ ∀ s, machine.Run (fun _ _ => True) (.init none) s →
        s.verifier.authenticatedPeer = s.completed.head? := by
  intro replay genuine seen machine
  have hreplayed : (machine.exec (genuine ++ replay 1) (.init none)).map seen
      = some (some "TWO", some "ONE") := by decide
  refine ⟨by decide, hreplayed, fun h => ?_⟩
  obtain ⟨s, hs, hseen⟩ := Option.map_eq_some_iff.mp hreplayed
  have hsame := h s (.of_exec hs)
  rw [(Prod.mk.inj hseen).1, (Prod.mk.inj hseen).2] at hsame
  exact absurd hsame (by decide)

end BlockchainOps.Tls
