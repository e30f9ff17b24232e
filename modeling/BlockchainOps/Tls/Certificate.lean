import BlockchainOps.Lib.Base32
import BlockchainOps.Lib.Base64
import BlockchainOps.Lib.Fallible
import BlockchainOps.Algo.Keys
import BlockchainOps.Tls.Handshake

/-!
# Identity certificates and the identity pin

`generate` mints a self-signed certificate whose leaf key an Algorand identity signs.
`pinnedClientConfig` builds the configuration of a client that talks to one node only: its
verifier admits the certificates of one address. The packages that make keys and write X.509 and
DER are parameters.
-/

namespace BlockchainOps.Tls

open Effect Fallible Wire

/-- An ephemeral leaf key pair, both halves in DER. -/
structure LeafKey where
  publicKeyDer : Bytes
  privateKeyDer : Bytes
deriving DecidableEq, Repr

/-- What a certificate is made of: its names, and the extensions of our own with their
identifiers. -/
structure CertificateParams where
  subjectAltNames : List String
  customExtensions : List (List ℕ × Bytes)
deriving DecidableEq, Repr

/-- What minting a certificate takes from other packages. -/
structure CertificatePrims extends IdentityPrims, Algo.SigningPrims where
  /-- `KeyPair::generate`, whose randomness is the argument. -/
  generateLeafKey : ℕ → Except String LeafKey
  newCertificateParams : List String → Except String CertificateParams
  selfSigned : CertificateParams → LeafKey → Except String Bytes
  /-- The DER sequence of two octet strings. -/
  constructDerSignedKey : Bytes → Bytes → Bytes
  /-- The TLS library accepts a certificate and its private key as a client's own. -/
  acceptClientAuth : Bytes → Bytes → Except String Unit

/-- A certificate bound to an identity, with its leaf key. -/
structure IdentityCert where
  cert : Bytes
  key : Bytes
  address : String
deriving DecidableEq, Repr

def sidewinderIdentityExtOid : List ℕ := [1, 3, 6, 1, 4, 1, 66778, 1, 1]

/-- The dotted form of an object identifier. -/
def dotted (oid : List ℕ) : String := ".".intercalate (oid.map toString)

theorem dotted_sidewinderIdentityExtOid :
    dotted sidewinderIdentityExtOid = sidewinderIdentityExtOidStr := by
  decide +kernel

/-- Generate a certificate bound to `identity`, a signing key's seed. -/
def generate (p : CertificatePrims) (draw : ℕ) (identity : Field 32) :
    Except Algo.Error IdentityCert := do
  let leaf ← (p.generateLeafKey draw).mapError fun _ => .text "generate ephemeral leaf key"
  let leafSpki := leaf.publicKeyDer
  let signature := p.sign identity (identitySigningMessage leafSpki)
  let identityPublicKey := p.verifyingKey identity
  let extensionPayload := p.constructDerSignedKey identityPublicKey.1 signature.1
  let params ← (p.newCertificateParams ["node.sidewinder.invalid"]).mapError fun _ =>
    .text "build certificate parameters"
  let params := { params with
    customExtensions := params.customExtensions ++ [(sidewinderIdentityExtOid, extensionPayload)] }
  let cert ← (p.selfSigned params leaf).mapError fun _ => .text "self-sign identity certificate"
  let address ← (Algo.byteKeyToAddress p.toAddressPrims identityPublicKey.1).mapError fun _ =>
    .text "derive Algorand address from identity key"
  .ok { cert, key := leaf.privateKeyDer, address }

/-- What it takes to mint a certificate. -/
theorem generate_of {p : CertificatePrims} {draw : ℕ} {identity : Field 32} {leaf : LeafKey}
    {params : CertificateParams} {cert : Bytes} {address : String}
    (hleaf : p.generateLeafKey draw = .ok leaf)
    (hparams : p.newCertificateParams ["node.sidewinder.invalid"] = .ok params)
    (hcert : p.selfSigned { params with
      customExtensions := params.customExtensions ++ [(sidewinderIdentityExtOid,
        p.constructDerSignedKey (p.verifyingKey identity).1
          (p.sign identity (identitySigningMessage leaf.publicKeyDer)).1)] } leaf = .ok cert)
    (haddress : Algo.byteKeyToAddress p.toAddressPrims (p.verifyingKey identity).1 = .ok address) :
    generate p draw identity = .ok ⟨cert, leaf.privateKeyDer, address⟩ := by
  unfold generate
  simp only [hleaf, hparams, hcert, haddress, Except.mapError, bind, Except.bind]

/-! ## The pin -/

/-- A fixed set of members and their roles. -/
structure StaticMembership where
  roles : String → Option Role

/-- Nobody. -/
def StaticMembership.new : StaticMembership := ⟨fun _ => none⟩

/-- Add a member, or overwrite its role. -/
def StaticMembership.with (m : StaticMembership) (address : String) (role : Role) :
    StaticMembership := ⟨Function.update m.roles address (some role)⟩

def StaticMembership.authority (m : StaticMembership) : MembershipAuthority where
  roleOf := m.roles

/-- A client's configuration: its own certificate and the verifier of the server's. -/
structure ClientConfig where
  own : IdentityCert
  authority : MembershipAuthority
  verifier : IdentityVerifier

/-- Pin the server to exactly `nodeIdentity`, and present the certificate of `own`. -/
def pinnedClientConfig (p : CertificatePrims) (draw : ℕ) (own : Field 32) (nodeIdentity : String) :
    Except Algo.Error ClientConfig := do
  let authority := (StaticMembership.new.with nodeIdentity .clusterNode).authority
  let verifier := IdentityVerifier.newForRole .clusterNode
  let cert ← (generate p draw own).mapError fun e =>
    .text s!"mint client identity certificate: {e.display}"
  (p.acceptClientAuth cert.cert cert.key).mapError fun e =>
    .text s!"build client mutual-TLS config: {e}"
  .ok { own := cert, authority, verifier }

/-- What it takes to pin a server. -/
theorem pinnedClientConfig_of {p : CertificatePrims} {draw : ℕ} {own : Field 32} {cert : IdentityCert}
    (hcert : generate p draw own = .ok cert)
    (haccept : p.acceptClientAuth cert.cert cert.key = .ok ()) (nodeIdentity : String) :
    pinnedClientConfig p draw own nodeIdentity = .ok
      { own := cert, authority := (StaticMembership.new.with nodeIdentity .clusterNode).authority,
        verifier := .newForRole .clusterNode } := by
  unfold pinnedClientConfig
  simp only [hcert, haccept, Except.mapError, bind, Except.bind]

/-- The configuration's verifier accepts a server's certificate, whatever its cell holds. -/
def ClientConfig.Accepts (p : CertificatePrims) (cfg : ClientConfig) (cert : Bytes) : Prop :=
  ∀ cell, (verifyServerCert p.toIdentityPrims cfg.authority cert
    { cfg.verifier with authenticated := cell }).1 = .ok ()

/-! ## What an accepted certificate carries -/

/-- `key` is the identity key that `cert` embeds, of the identity `address`, and it signed the
certificate's leaf key. -/
structure Binds (p : IdentityPrims) (cert : Bytes) (x : X509) (key signature : Bytes)
    (address : String) : Prop where
  parsed : p.parseX509Certificate cert = .ok x
  embedded : ∃ extension, x.extensions.find? (fun ext => ext.1 = sidewinderIdentityExtOidStr)
    = some extension ∧ p.parseDerSignedKey extension.2 = .ok (key, signature)
  length_key : key.length = 32
  length_signature : signature.length = 64
  isKey : p.isVerifyingKey key = true
  address_eq : Algo.byteKeyToAddress p.toAddressPrims key = .ok address
  signed : p.verifyStrict key (identitySigPrefixBytes ++ x.subjectPki) signature = true

/-- The check passes exactly the certificates that bind an authorized identity. -/
theorem verifyIdentityCertInner_ok_iff {p : IdentityPrims} {cert : Bytes}
    {authority : MembershipAuthority} {required : Option Role} {address : String} :
    verifyIdentityCertInner p cert authority required = .ok address ↔
      (∃ x key signature, Binds p cert x key signature address) ∧
        authorized authority required address = true := by
  unfold verifyIdentityCertInner
  constructor
  · intro h
    obtain ⟨x, hparse, h⟩ := bind_eq_ok.mp h
    rw [mapError_eq_ok] at hparse
    dsimp only at h
    split at h
    · rename_i extension hfind
      obtain ⟨⟨key, signature⟩, hder, h⟩ := bind_eq_ok.mp h
      rw [mapError_eq_ok] at hder
      simp only [refuse_eq_ok, bind_eq_ok, mapError_eq_ok] at h
      obtain ⟨hkey, hisKey, hsig, hsigned, derived, haddress, hauthorized, hsame⟩ := h
      rw [Except.ok.inj hsame] at haddress hauthorized
      have hverified : p.verifyStrict key (identitySigningMessage x.subjectPki) signature = true := by
        simpa using hsigned
      exact ⟨⟨x, key, signature, hparse, ⟨extension, hfind, hder⟩, by simpa using hkey,
        by simpa using hsig, by simpa using hisKey, haddress, hverified⟩, by simpa using hauthorized⟩
    · exact absurd h (by simp)
  · rintro ⟨⟨x, key, signature, hbinds⟩, hauthorized⟩
    obtain ⟨extension, hfind, hder⟩ := hbinds.embedded
    have hsigned : p.verifyStrict key (identitySigningMessage x.subjectPki) signature = true :=
      hbinds.signed
    simp [hbinds.parsed, hfind, hder, hbinds.length_key, hbinds.isKey, hbinds.length_signature,
      hsigned, hbinds.address_eq, hauthorized, Except.mapError, bind, Except.bind]

/-- The pin admits exactly the one address. -/
theorem authorized_pin (nodeIdentity address : String) :
    authorized (StaticMembership.new.with nodeIdentity .clusterNode).authority
      (some .clusterNode) address = true ↔ address = nodeIdentity := by
  show decide (Function.update (fun _ => none) nodeIdentity (some Role.clusterNode) address
    = some .clusterNode) = true ↔ _
  rw [decide_eq_true_eq, Function.update_apply]
  split_ifs with h
  · exact ⟨fun _ => h, fun _ => rfl⟩
  · exact ⟨fun h' => absurd h' (by simp), fun h' => absurd h' h⟩

/-- A pinned configuration accepts exactly the certificates that bind the pinned address. -/
theorem accepts_iff {p : CertificatePrims} {draw : ℕ} {own : Field 32} {nodeIdentity : String}
    {cfg : ClientConfig} (hcfg : pinnedClientConfig p draw own nodeIdentity = .ok cfg)
    (cert : Bytes) :
    cfg.Accepts p cert ↔
      ∃ x key signature, Binds p.toIdentityPrims cert x key signature nodeIdentity := by
  obtain ⟨minted, -, hcfg⟩ := bind_eq_ok.mp hcfg
  obtain ⟨-, -, hcfg⟩ := bind_eq_ok.mp hcfg
  rw [← Except.ok.inj hcfg]
  have hverify : ∀ cell, (verifyServerCert p.toIdentityPrims
      (StaticMembership.new.with nodeIdentity .clusterNode).authority cert
      { IdentityVerifier.newForRole .clusterNode with authenticated := cell }).1 = .ok () ↔
      ∃ address, verifyIdentityCertInner p.toIdentityPrims cert
        (StaticMembership.new.with nodeIdentity .clusterNode).authority (some .clusterNode)
          = .ok address := by
    intro cell
    unfold verifyServerCert IdentityVerifier.newForRole
    rw [verifyPeerCert_apply]
    rcases verifyIdentityCertInner p.toIdentityPrims cert
      (StaticMembership.new.with nodeIdentity .clusterNode).authority (some .clusterNode)
      with e | address
    · simp
    · simp
  constructor
  · intro h
    obtain ⟨address, hok⟩ := (hverify none).mp (h none)
    obtain ⟨hbinds, hauthorized⟩ := verifyIdentityCertInner_ok_iff.mp hok
    rw [authorized_pin] at hauthorized
    rw [← hauthorized]
    exact hbinds
  · intro h cell
    refine (hverify cell).mpr ⟨nodeIdentity, verifyIdentityCertInner_ok_iff.mpr ⟨h, ?_⟩⟩
    exact (authorized_pin nodeIdentity nodeIdentity).mpr rfl

/-! ## One key for one address -/

/-- Distinct keys have distinct addresses. -/
theorem byteKeyToAddress_injective {p : Algo.AddressPrims} {base32 : Base32}
    (hbase32 : p.base32NopadEncode = base32.encode) {key key' : Bytes} {address : String}
    (hlen : key.length = key'.length) (h : Algo.byteKeyToAddress p key = .ok address)
    (h' : Algo.byteKeyToAddress p key' = .ok address) : key = key' := by
  unfold Algo.byteKeyToAddress at h h'
  rw [hbase32] at h h'
  have hbytes := base32.encode_injective ((Except.ok.inj h).trans (Except.ok.inj h').symm)
  exact (List.append_inj hbytes hlen).1

/-! ## Certificates that were generated -/

/-- The identifiers of the extensions that the certificate writer adds of its own. -/
def standardExtensionOids : List String :=
  ["2.5.29.35", "2.5.29.17", "2.5.29.15", "2.5.29.37", "2.5.29.30", "2.5.29.31", "2.5.29.14",
    "2.5.29.19"]

/-- The X.509 and DER packages read back what they wrote, and Ed25519 verifies what it signed. -/
structure CertificatePrims.Honest (p : CertificatePrims) : Prop where
  fresh_params : ∀ {names params}, p.newCertificateParams names = .ok params →
    params.customExtensions = []
  parse_selfSigned : ∀ {params leaf der}, p.selfSigned params leaf = .ok der →
    ∃ standard : List (String × Bytes), (∀ ext ∈ standard, ext.1 ∈ standardExtensionOids) ∧
      p.parseX509Certificate der = .ok ⟨leaf.publicKeyDer,
        standard ++ params.customExtensions.map fun ext => (dotted ext.1, ext.2)⟩
  parse_construct : ∀ (key : Field 32) (signature : Field 64),
    p.parseDerSignedKey (p.constructDerSignedKey key.1 signature.1) = .ok (key.1, signature.1)
  isVerifyingKey : ∀ seed, p.isVerifyingKey (p.verifyingKey seed).1 = true
  verify_sign : ∀ seed message,
    p.verifyStrict (p.verifyingKey seed).1 message (p.sign seed message).1 = true

/-- A generated certificate binds its identity. -/
theorem binds_of_generate {p : CertificatePrims} (honest : p.Honest) {draw : ℕ}
    {identity : Field 32} {c : IdentityCert} (h : generate p draw identity = .ok c) :
    ∃ x signature, Binds p.toIdentityPrims c.cert x (p.verifyingKey identity).1 signature
      c.address := by
  unfold generate at h
  obtain ⟨leaf, -, h⟩ := bind_eq_ok.mp h
  obtain ⟨params, hparams, h⟩ := bind_eq_ok.mp h
  obtain ⟨cert, hcert, h⟩ := bind_eq_ok.mp h
  obtain ⟨address, haddress, h⟩ := bind_eq_ok.mp h
  rw [mapError_eq_ok] at hparams hcert haddress
  rw [← Except.ok.inj h]
  obtain ⟨standard, hstandard, hparse⟩ := honest.parse_selfSigned hcert
  rw [honest.fresh_params hparams] at hparse
  -- none of the writer's own extensions is taken for the identity extension
  have hskip : standard.find? (fun ext => ext.1 = sidewinderIdentityExtOidStr) = none := by
    rw [List.find?_eq_none]
    intro ext hext hsame
    have hmem := hstandard ext hext
    rw [of_decide_eq_true hsame] at hmem
    exact absurd hmem (by decide +kernel)
  have hfound : (standard ++ [(dotted sidewinderIdentityExtOid, p.constructDerSignedKey
      (p.verifyingKey identity).1 (p.sign identity (identitySigningMessage leaf.publicKeyDer)).1)]).find?
        (fun ext => ext.1 = sidewinderIdentityExtOidStr)
      = some (dotted sidewinderIdentityExtOid, p.constructDerSignedKey (p.verifyingKey identity).1
        (p.sign identity (identitySigningMessage leaf.publicKeyDer)).1) := by
    rw [List.find?_append, hskip, Option.none_or, dotted_sidewinderIdentityExtOid]
    simp
  exact ⟨_, _, hparse, ⟨_, hfound, honest.parse_construct _ _⟩, (p.verifyingKey identity).2,
    (p.sign identity _).2, honest.isVerifyingKey identity, haddress, honest.verify_sign identity _⟩

/-- The identity pin admits one key only: whatever certificates a pinned configuration accepts
embed the same key, which is that of the pinned address and signed each certificate's own leaf
key; and it accepts every certificate generated for an identity of that address. -/
theorem pinnedClientConfig_pins {p : CertificatePrims} {base32 : Base32}
    (hbase32 : p.base32NopadEncode = base32.encode) (honest : p.Honest) {draw : ℕ} {own : Field 32}
    {nodeIdentity : String} {cfg : ClientConfig}
    (hcfg : pinnedClientConfig p draw own nodeIdentity = .ok cfg) :
    (∀ c₁ c₂, cfg.Accepts p c₁ → cfg.Accepts p c₂ →
      ∃ key x₁ x₂ signature₁ signature₂,
        Binds p.toIdentityPrims c₁ x₁ key signature₁ nodeIdentity ∧
        Binds p.toIdentityPrims c₂ x₂ key signature₂ nodeIdentity) ∧
    (∀ draw' identity c, generate p draw' identity = .ok c → c.address = nodeIdentity →
      cfg.Accepts p c.cert) := by
  refine ⟨fun c₁ c₂ h₁ h₂ => ?_, fun draw' identity c hc haddress => ?_⟩
  · obtain ⟨x₁, key₁, signature₁, hbinds₁⟩ := (accepts_iff hcfg c₁).mp h₁
    obtain ⟨x₂, key₂, signature₂, hbinds₂⟩ := (accepts_iff hcfg c₂).mp h₂
    have hkey : key₁ = key₂ :=
      byteKeyToAddress_injective hbase32 (hbinds₁.length_key.trans hbinds₂.length_key.symm)
        hbinds₁.address_eq hbinds₂.address_eq
    rw [← hkey] at hbinds₂
    exact ⟨key₁, x₁, x₂, signature₁, signature₂, hbinds₁, hbinds₂⟩
  · obtain ⟨x, signature, hbinds⟩ := binds_of_generate honest hc
    rw [haddress] at hbinds
    exact (accepts_iff hcfg c.cert).mpr ⟨x, _, signature, hbinds⟩

/-! ## One identity and its certificate -/

/-- Bytes written in base64. -/
@[irreducible] def ofBase64 (s : String) : Bytes := Base64.Standard.groups s.toList

namespace OneIdentity

/-- The identity's seed. -/
def seed : Field 32 := .range 32

def publicKey : Field 32 :=
  ⟨ofBase64 "A6EHv/POEL4dcN0Y50vAmWfk1jCbpQ1fHdyGZBJVMbg=", by decide +kernel⟩

/-- The key and the signature of every other seed. -/
def otherKey : Field 32 := .replicate 32 0

def otherSignature : Field 64 := .replicate 64 0

def digest : Bytes := ofBase64 "9l4P6BoWKxsiCakkl562l7NmkKUkT34bQ9muPMeXFGQ="

def leaf : LeafKey where
  publicKeyDer := ofBase64 <|
    "MFkwEwYHKoZIzj0CAQYIKoZIzj0DAQcDQgAE2s90uWtz3giudT5js8fWVcbpJ8Skq+UhYH53MZ0iAdpK" ++
    "DDhb1nlgkNfLF83+K0xXJoZz3xL1wsT+Oi9B5WHl8A=="
  privateKeyDer := ofBase64 <|
    "MIGHAgEAMBMGByqGSM49AgEGCCqGSM49AwEHBG0wawIBAQQgoM6EpkIgTI+5lkBbUuaCcdvKCM1CZmuF" ++
    "pL2m9m2RwEChRANCAATaz3S5a3PeCK51PmOzx9ZVxuknxKSr5SFgfncxnSIB2koMOFvWeWCQ18sXzf4r" ++
    "TFcmhnPfEvXCxP46L0HlYeXw"

/-- The identity's signature over the leaf key. -/
def signature : Field 64 :=
  ⟨ofBase64 ("O90lrLHuqU9s0rinaTcUS1+8RWaMXcyfJpYo1F8c3+BIo+5f9N5fmIaCqYBIYAAKa1/GcIG22IxmPakS"
    ++ "/9knDw=="), by decide +kernel⟩

/-- The DER sequence of a 32-byte key and a 64-byte signature. -/
def signedKey (key signature : Bytes) : Bytes :=
  [0x30, 0x64, 0x04, 0x20] ++ key ++ [0x04, 0x40] ++ signature

/-- The extension that names the host. -/
def subjectAltName : String × Bytes :=
  ("2.5.29.17", [0x30, 0x19, 0x82, 0x17] ++ utf8 "node.sidewinder.invalid")

def certificate : Bytes := ofBase64 <|
  "MIIB5DCCAYqgAwIBAgIUBXZAIzXXZPXRUaz5i6BsyrxPw6owCgYIKoZIzj0EAwIwITEfMB0GA1UEAwwW" ++
  "cmNnZW4gc2VsZiBzaWduZWQgY2VydDAgFw0yNjExMTkwMTE5MzNaGA8yMTA5MDEwODAxMTkzM1owITEf" ++
  "MB0GA1UEAwwWcmNnZW4gc2VsZiBzaWduZWQgY2VydDBZMBMGByqGSM49AgEGCCqGSM49AwEHA0IABNrP" ++
  "dLlrc94IrnU+Y7PH1lXG6SfEpKvlIWB+dzGdIgHaSgw4W9Z5YJDXyxfN/itMVyaGc98S9cLE/jovQeVh" ++
  "5fCjgZ0wgZowIgYDVR0RBBswGYIXbm9kZS5zaWRld2luZGVyLmludmFsaWQwdAYKKwYBBAGEiVoBAQRm" ++
  "MGQEIAOhB7/zzhC+HXDdGOdLwJln5NYwm6UNXx3chmQSVTG4BEA73SWsse6pT2zSuKdpNxRLX7xFZoxd" ++
  "zJ8mlijUXxzf4Eij7l/03l+YhoKpgEhgAAprX8ZwgbbYjGY9qRL/2ScPMAoGCCqGSM49BAMCA0gAMEUC" ++
  "IGH7vsYyqzWkLX0gzY+xdPY+mM50Uc6qJ8pxYxZKF7BxAiEArPFl8r7FssdEnxCh598VVT8ejd+r1ezM" ++
  "ZtKQa5KvV1E="

/-- The packages on this identity: its key, its one certificate and its one signature. -/
def prims : CertificatePrims where
  sha512_256 b := if b = publicKey.1 then digest else List.replicate 32 0
  base32NopadEncode := Base32.standard.encode
  parseX509Certificate der :=
    if der = certificate then
      .ok ⟨leaf.publicKeyDer, [subjectAltName,
        (sidewinderIdentityExtOidStr, signedKey publicKey.1 signature.1)]⟩
    else .error "invalid certificate"
  parseDerSignedKey der :=
    if der = signedKey ((der.drop 4).take 32) (der.drop 38) then
      .ok ((der.drop 4).take 32, der.drop 38)
    else .error "invalid DER"
  isVerifyingKey key := key = publicKey.1 ∨ key = otherKey.1
  verifyStrict key message s := s =
    if key = publicKey.1 ∧ message = identitySigningMessage leaf.publicKeyDer then signature.1
    else otherSignature.1
  verifyingKey s := if s = seed then publicKey else otherKey
  sign s message :=
    if s = seed ∧ message = identitySigningMessage leaf.publicKeyDer then signature
    else otherSignature
  generateLeafKey _ := .ok leaf
  newCertificateParams names := .ok ⟨names, []⟩
  selfSigned params key :=
    if params = ⟨["node.sidewinder.invalid"],
        [(sidewinderIdentityExtOid, signedKey publicKey.1 signature.1)]⟩ ∧ key = leaf then
      .ok certificate
    else .error "no such certificate"
  constructDerSignedKey := signedKey
  acceptClientAuth _ _ := .ok ()

theorem honest : prims.Honest where
  fresh_params h := by
    rw [← Except.ok.inj h]
  parse_selfSigned {params key der} h := by
    have hcert : params = ⟨["node.sidewinder.invalid"],
        [(sidewinderIdentityExtOid, signedKey publicKey.1 signature.1)]⟩ ∧ key = leaf ∧
        der = certificate := by
      simp only [prims] at h
      split_ifs at h with hwhole
      exact ⟨hwhole.1, hwhole.2, (Except.ok.inj h).symm⟩
    obtain ⟨hparams, hkey, hder⟩ := hcert
    refine ⟨[subjectAltName], by decide +kernel, ?_⟩
    simp only [prims]
    rw [hparams, hkey, if_pos hder, List.map_singleton, dotted_sidewinderIdentityExtOid]
    rfl
  parse_construct key signature := by
    have hdrop : (signedKey key.1 signature.1).drop 38 = signature.1 := by
      unfold signedKey
      rw [List.append_assoc, List.append_assoc, List.drop_append, List.drop_append]
      simp [key.2]
    have htake : ((signedKey key.1 signature.1).drop 4).take 32 = key.1 := by
      unfold signedKey
      simp [key.2]
    simp only [prims]
    rw [hdrop, htake, if_pos rfl]
  isVerifyingKey s := by
    simp only [prims]
    split_ifs <;> simp
  verify_sign s message := by
    have hdistinct : otherKey.1 ≠ publicKey.1 := by decide +kernel
    simp only [prims]
    by_cases hs : s = seed
    · rw [if_pos hs]
      by_cases hm : message = identitySigningMessage leaf.publicKeyDer
      · simp [hs, hm]
      · simp [hm]
    · rw [if_neg hs, if_neg fun h => hs h.1, if_neg fun h => hdistinct h.1]
      exact decide_eq_true rfl

theorem address_eq : Algo.byteKeyToAddress prims.toAddressPrims publicKey.1
    = .ok "AOQQPP7TZYIL4HLQ3UMOOS6ATFT6JVRQTOSQ2XY53SDGIESVGG4MPFYUMQ" := by
  have hdigest : prims.sha512_256 publicKey.1 = digest := by
    simp only [prims, if_true]
  have htext : Base32.standard.encode (publicKey.1 ++ digest.drop (digest.length - 4))
      = "AOQQPP7TZYIL4HLQ3UMOOS6ATFT6JVRQTOSQ2XY53SDGIESVGG4MPFYUMQ" := by
    decide +kernel
  unfold Algo.byteKeyToAddress
  rw [hdigest]
  exact congrArg Except.ok htext

/-- The certificate that the identity's seed generates. -/
def minted : IdentityCert :=
  ⟨certificate, leaf.privateKeyDer, "AOQQPP7TZYIL4HLQ3UMOOS6ATFT6JVRQTOSQ2XY53SDGIESVGG4MPFYUMQ"⟩

theorem generate_eq : generate prims 0 seed = .ok minted := by
  have hkey : prims.verifyingKey seed = publicKey := by simp only [prims, if_true]
  have hsign : prims.sign seed (identitySigningMessage leaf.publicKeyDer) = signature := by
    simp only [prims, and_self, if_true]
  have hder : prims.constructDerSignedKey publicKey.1 signature.1
      = signedKey publicKey.1 signature.1 := by
    simp only [prims]
  have hleaf : prims.generateLeafKey 0 = .ok leaf := by simp only [prims]
  have hparams : prims.newCertificateParams ["node.sidewinder.invalid"]
      = .ok ⟨["node.sidewinder.invalid"], []⟩ := by simp only [prims]
  have hcert : prims.selfSigned ⟨["node.sidewinder.invalid"],
      [(sidewinderIdentityExtOid, signedKey publicKey.1 signature.1)]⟩ leaf = .ok certificate := by
    simp only [prims, and_self, if_true]
  refine generate_of hleaf hparams ?_ ?_
  · rw [hkey, hsign, hder]
    exact hcert
  · rw [hkey]
    exact address_eq

/-- A client pinned to the identity accepts its certificate. -/
theorem pinned_accepts_certificate :
    ∃ cfg, pinnedClientConfig prims 0 seed minted.address = .ok cfg ∧
      cfg.Accepts prims minted.cert := by
  have hbase32 : prims.base32NopadEncode = Base32.standard.encode := by simp only [prims]
  have hclient : prims.acceptClientAuth minted.cert minted.key = .ok () := by simp only [prims]
  have hcfg := pinnedClientConfig_of generate_eq hclient minted.address
  obtain ⟨-, hgenerated⟩ := pinnedClientConfig_pins hbase32 honest hcfg
  exact ⟨_, hcfg, hgenerated 0 seed minted generate_eq rfl⟩

end OneIdentity

end BlockchainOps.Tls
