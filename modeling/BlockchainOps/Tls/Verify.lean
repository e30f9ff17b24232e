import BlockchainOps.Algo.Address

/-!
# The offline identity check

`verifyIdentityCertInner` is the whole trust decision on a presented certificate: find the
identity extension, check the identity's signature over the leaf key, derive the identity's
address and ask the membership authority. X.509 and DER parsing and Ed25519 belong to other
packages and are parameters (`IdentityPrims`).
-/

namespace BlockchainOps.Tls

/-- The capacity in which an identity is permitted. -/
inductive Role
  | clusterNode
  | client
deriving DecidableEq, Repr

/-- Answers whether an identity is permitted, and as what. -/
structure MembershipAuthority where
  roleOf : String → Option Role
  isMember : String → Bool := fun address => (roleOf address).isSome

/-- What the check reads of a parsed certificate: the raw `SubjectPublicKeyInfo`, and the
extensions with their dotted identifiers. -/
structure X509 where
  subjectPki : Bytes
  extensions : List (String × Bytes)
deriving DecidableEq, Repr

/-- What the check takes from other packages. -/
structure IdentityPrims extends Algo.AddressPrims where
  parseX509Certificate : Bytes → Except String X509
  /-- The two octet strings of a DER sequence. -/
  parseDerSignedKey : Bytes → Except String (Bytes × Bytes)
  /-- `VerifyingKey::from_bytes` accepts the 32 bytes. -/
  isVerifyingKey : Bytes → Bool
  /-- `verify_strict` of a key on a message and a 64-byte signature. -/
  verifyStrict : Bytes → Bytes → Bytes → Bool

inductive VerifyError
  | parse (e : String)
  | missingExtension
  | badSignedKey (e : String)
  | badPublicKey
  | signatureInvalid
  | address (e : String)
  | notAuthorized (address : String)
deriving DecidableEq, Repr

/-- The `Display` form. -/
def VerifyError.display : VerifyError → String
  | parse e => s!"certificate parse error: {e}"
  | missingExtension => "no Sidewinder identity extension"
  | badSignedKey e => s!"malformed identity extension: {e}"
  | badPublicKey => "invalid Ed25519 identity public key"
  | signatureInvalid => "identity signature invalid"
  | address e => s!"address derivation failed: {e}"
  | notAuthorized a => s!"identity {a} not authorized"

def sidewinderIdentityExtOidStr : String := "1.3.6.1.4.1.66778.1.1"

def identitySigPrefixBytes : Bytes := utf8 "sidewinder-tls-identity:v1:"

/-- The message the identity key signs. -/
def identitySigningMessage (leafSpkiDer : Bytes) : Bytes := identitySigPrefixBytes ++ leafSpkiDer

/-- Whether `address` may take the role asked for; `none` asks for any role. -/
def authorized (authority : MembershipAuthority) (required : Option Role) (address : String) :
    Bool :=
  match required with
  | some role => authority.roleOf address = some role
  | none => authority.isMember address

/-- Verify that `endEntity` is bound to an authorized identity; its address. -/
def verifyIdentityCertInner (p : IdentityPrims) (endEntity : Bytes)
    (authority : MembershipAuthority) (required : Option Role) : Except VerifyError String := do
  let cert ← (p.parseX509Certificate endEntity).mapError .parse
  let leafSpki := cert.subjectPki
  let some extension := cert.extensions.find? (fun ext => ext.1 = sidewinderIdentityExtOidStr)
    | .error .missingExtension
  let (publicKey, signature) ← (p.parseDerSignedKey extension.2).mapError .badSignedKey
  if publicKey.length ≠ 32 then .error .badPublicKey
  if !p.isVerifyingKey publicKey then .error .badPublicKey
  if signature.length ≠ 64 then .error .signatureInvalid
  if !p.verifyStrict publicKey (identitySigningMessage leafSpki) signature then
    .error .signatureInvalid
  let address ← (Algo.byteKeyToAddress p.toAddressPrims publicKey).mapError
    fun e => .address e.display
  if !authorized authority required address then .error (.notAuthorized address)
  .ok address

/-- Verify for a member in any role. -/
def verifyIdentityCert (p : IdentityPrims) (endEntity : Bytes)
    (authority : MembershipAuthority) : Except VerifyError String :=
  verifyIdentityCertInner p endEntity authority none

/-- Verify for a member in exactly `role`. -/
def verifyIdentityCertForRole (p : IdentityPrims) (endEntity : Bytes)
    (authority : MembershipAuthority) (role : Role) : Except VerifyError String :=
  verifyIdentityCertInner p endEntity authority (some role)

end BlockchainOps.Tls
