import BlockchainOps.Tls.Certificate

/-!
# The server's side of a handshake

A node presents its own identity certificate and admits the identities that its membership
authority names. A refusal reaches the client as an alert. A client that has proved its identity and
is not permitted is told so by an alert of its own (`verifyClientCert_of_binds`).
-/

namespace BlockchainOps.Tls

open Effect Fallible

/-! ## Fixed memberships -/

/-- The roles given. -/
def StaticMembership.fromRoles (roles : String → Option Role) : StaticMembership := ⟨roles⟩

/-- The allowlist's cluster nodes and callers; who is both is a node. -/
def StaticMembership.fromSets (nodes callers : List String) : StaticMembership :=
  let roles := callers.foldl (fun m caller => m.with caller .client) .new
  nodes.foldl (fun m node => m.with node .clusterNode) roles

theorem roles_foldl_with (m : StaticMembership) (addresses : List String) (role : Role)
    (address : String) :
    (addresses.foldl (fun m a => m.with a role) m).roles address
      = if address ∈ addresses then some role else m.roles address := by
  induction addresses generalizing m with
  | nil => rfl
  | cons a addresses ih =>
    rw [List.foldl_cons, ih]
    show (if _ then _ else Function.update m.roles a (some role) address) = _
    rw [Function.update_apply]
    by_cases hmem : address ∈ addresses
    · rw [if_pos hmem, if_pos (List.mem_cons_of_mem a hmem)]
    · by_cases hsame : address = a
      · rw [if_neg hmem, if_pos hsame, if_pos (hsame ▸ List.mem_cons_self)]
      · rw [if_neg hmem, if_neg hsame, if_neg]
        exact fun h => (List.mem_cons.mp h).elim hsame hmem

theorem roleOf_fromSets (nodes callers : List String) (address : String) :
    (StaticMembership.fromSets nodes callers).authority.roleOf address
      = if address ∈ nodes then some .clusterNode
        else if address ∈ callers then some .client else none := by
  show (nodes.foldl _ (callers.foldl _ StaticMembership.new)).roles address = _
  rw [roles_foldl_with, roles_foldl_with]
  rfl

/-- Whom a surface for a role admits: a caller that is a node too is admitted as a node only. -/
theorem authorized_fromSets (nodes callers : List String) (required : Option Role)
    (address : String) :
    authorized (StaticMembership.fromSets nodes callers).authority required address = true ↔
      match required with
      | some .clusterNode => address ∈ nodes
      | some .client => address ∈ callers ∧ address ∉ nodes
      | none => address ∈ nodes ∨ address ∈ callers := by
  have hrole := roleOf_fromSets nodes callers address
  have hmember : (StaticMembership.fromSets nodes callers).authority.isMember address
      = ((StaticMembership.fromSets nodes callers).authority.roleOf address).isSome := rfl
  unfold authorized
  by_cases hnode : address ∈ nodes
  · rw [if_pos hnode] at hrole
    rcases required with _ | _ | _ <;> simp [hmember, hrole, hnode]
  · rw [if_neg hnode] at hrole
    by_cases hcaller : address ∈ callers
    · rw [if_pos hcaller] at hrole
      rcases required with _ | _ | _ <;> simp [hmember, hrole, hnode, hcaller]
    · rw [if_neg hcaller] at hrole
      rcases required with _ | _ | _ <;> simp [hmember, hrole, hnode, hcaller]

/-! ## Alerts -/

inductive AlertDescription
  | accessDenied
  | handshakeFailure
deriving DecidableEq, Repr

/-- The alert that the TLS library sends for an error of a verifier. -/
def RustlsError.alert : RustlsError → AlertDescription
  | applicationVerificationFailure => .accessDenied
  | general _ => .handshakeFailure

/-- A server's configuration: its own certificate and the verifier of the client's. -/
structure ServerConfig where
  own : IdentityCert
  verifier : IdentityVerifier
deriving DecidableEq, Repr

/-- Require and authenticate a client identity, and present `own`. The TLS library has to accept it
as a certificate and its private key. -/
def serverConfig (acceptSingleCert : Bytes → Bytes → Except String Unit) (own : IdentityCert)
    (verifier : IdentityVerifier) : Except String ServerConfig := do
  acceptSingleCert own.cert own.key
  .ok { own, verifier }

/-! ## What a server makes of a certificate -/

variable {p : IdentityPrims} {cert key signature : Bytes} {x : X509} {address : String}

/-- A certificate binds one address. -/
theorem Binds.address_unique {x' : X509} {key' signature' : Bytes} {address' : String}
    (h : Binds p cert x key signature address) (h' : Binds p cert x' key' signature' address') :
    address = address' := by
  have hparsed := Except.ok.inj (h.parsed.symm.trans h'.parsed)
  obtain ⟨extension, hfind, hder⟩ := h.embedded
  obtain ⟨extension', hfind', hder'⟩ := h'.embedded
  rw [← hparsed, hfind] at hfind'
  rw [← Option.some.inj hfind', hder] at hder'
  have hkey : key = key' := congrArg Prod.fst (Except.ok.inj hder')
  have haddress := h'.address_eq
  rw [← hkey, h.address_eq] at haddress
  exact Except.ok.inj haddress

/-- An identity that was proved is refused only for want of a permission. -/
theorem verifyIdentityCertInner_of_binds (h : Binds p cert x key signature address)
    (authority : MembershipAuthority) (required : Option Role) :
    verifyIdentityCertInner p cert authority required
      = if authorized authority required address = true then .ok address
        else .error (.notAuthorized address) := by
  obtain ⟨extension, hfound, hder⟩ := h.embedded
  have hsigned : p.verifyStrict key (identitySigningMessage x.subjectPki) signature = true :=
    h.signed
  unfold verifyIdentityCertInner
  simp only [h.parsed, hfound, hder, h.length_key, h.isKey, h.length_signature, hsigned,
    h.address_eq, Except.mapError, bind, Except.bind]
  by_cases hauthorized : authorized authority required address = true <;> simp [hauthorized]

/-- What a server answers a client that has proved its identity: it is let in or denied access. -/
theorem verifyClientCert_of_binds (h : Binds p cert x key signature address)
    (authority : MembershipAuthority) (v : IdentityVerifier) :
    (verifyClientCert p authority cert v).1
      = if authorized authority v.requiredRole address = true then .ok ()
        else .err .applicationVerificationFailure := by
  unfold verifyClientCert
  rw [verifyPeerCert_apply, verifyIdentityCertInner_of_binds h]
  split_ifs <;> rfl

end BlockchainOps.Tls
