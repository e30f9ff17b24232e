import BlockchainOps.Algo.Handle
import BlockchainOps.Algo.LocalState
import BlockchainOps.Lib.Base32
import BlockchainOps.Lib.Fallible
import BlockchainOps.Lib.Text

/-!
# Notify envelopes

A request to the notify service carries a signature over its fields. They are joined with line
feeds, the token and the environment as the digest of a body of their own. Fields may themselves
have line feeds in them, so that two requests can be signed alike: equal messages have the same
fields exactly when the line feeds are distributed alike (`notify_fields_of_signed`).
-/

namespace BlockchainOps.Algo

open Wire Text

/-- The arguments of a call of `signNotifyEnvelope`. -/
structure NotifyEnvelope where
  route : String
  iss : String
  audience : String
  token : String
  env : String
  nonce : String
  exp : Int64
deriving DecidableEq, Repr

/-- `HEXLOWER`. -/
def hexLowerEncode (b : Bytes) : String := String.join (b.map hexByte)

/-- The route-specific body. -/
def notifyBody (c : NotifyEnvelope) : Except Error String :=
  if c.route = "register" then .ok s!"{c.token}\n{c.env}"
  else if c.route = "alert" then .ok ""
  else .error (.text s!"unknown notify route: {c.route}")

/-- The canonical message, one field a line. -/
def notifyMessage (c : NotifyEnvelope) (bodyHash : String) : String :=
  s!"bingle-notify:v1\n{c.route}\n{c.iss}\n{c.audience}\n{bodyHash}\n{c.nonce}\n{c.exp}"

/-- The bytes that are signed: the message after the tag of signed bytes. -/
def notifySigned (sha256 : Bytes → Field 32) (c : NotifyEnvelope) : Except Error Bytes := do
  let body ← notifyBody c
  let bodyHash := hexLowerEncode (sha256 (utf8 body)).1
  .ok (utf8 "MX" ++ utf8 (notifyMessage c bodyHash))

/-- What signing an envelope takes from other packages. -/
structure NotifyPrims extends KeyPrims where
  sha256 : Bytes → Field 32
  base64Encode : Bytes → String

/-- Sign the canonical envelope with the handle's key. -/
def AlgoOps.signNotifyEnvelope (p : NotifyPrims) (ops : AlgoOps) (c : NotifyEnvelope) :
    Except Error String := do
  let signed ← notifySigned p.sha256 c
  let sk ← ops.privateKeyBytes p.toKeyPrims
  .ok (p.base64Encode (p.sign sk signed).1)

/-! ## Fields without line feeds -/

/-- The number of line feeds in a field. -/
def lineFeeds (s : String) : ℕ := s.toList.count '\n'

theorem exp_of_toString {exp exp' : Int64} (h : toString exp = toString exp') : exp = exp' :=
  Int64.toInt_inj.mp (intRepr_injective h)

theorem lineFeed_not_mem_exp (exp : Int64) : '\n' ∉ (toString exp).toList :=
  not_mem_intRepr (by decide) (by decide) exp.toInt

theorem toList_hexByte (b : UInt8) :
    (hexByte b).toList = [Nat.digitChar (b.toNat / 16), Nat.digitChar (b.toNat % 16)] :=
  String.toList_ofList

theorem digitChar_injective {m n : ℕ} (hm : m < 16) (hn : n < 16)
    (h : Nat.digitChar m = Nat.digitChar n) : m = n := by
  have hall : ∀ i j : Fin 16, Nat.digitChar i = Nat.digitChar j → i = j := by decide
  exact congrArg Fin.val (hall ⟨m, hm⟩ ⟨n, hn⟩ h)

theorem hexByte_injective {b b' : UInt8} (h : hexByte b = hexByte b') : b = b' := by
  have hb := b.toNat_lt
  have hb' := b'.toNat_lt
  have hlists := congrArg String.toList h
  rw [toList_hexByte, toList_hexByte, List.cons.injEq, List.cons.injEq] at hlists
  have hhigh := digitChar_injective (by omega) (by omega) hlists.1
  have hlow := digitChar_injective (by omega) (by omega) hlists.2.1
  rw [← UInt8.toNat_inj]
  omega

theorem toList_hexLowerEncode (b : Bytes) :
    (hexLowerEncode b).toList = b.flatMap fun x => (hexByte x).toList := by
  unfold hexLowerEncode
  rw [String.toList_join, List.flatMap_map]

theorem hexLowerEncode_injective {b b' : Bytes} (hlength : b.length = b'.length)
    (h : hexLowerEncode b = hexLowerEncode b') : b = b' := by
  have hlists := congrArg String.toList h
  rw [toList_hexLowerEncode, toList_hexLowerEncode] at hlists
  have htwo : ∀ x : UInt8, (hexByte x).toList.length = 2 := fun x => by rw [toList_hexByte]; rfl
  have hpieces := Base32.groups_flatMap htwo b []
  rw [hlists, hlength, Base32.groups_flatMap htwo b' []] at hpieces
  apply List.map_injective_iff.mpr _ hpieces.symm
  intro x y hxy
  exact hexByte_injective (String.toList_inj.mp hxy)

theorem lineFeed_not_mem_hex (b : Bytes) : '\n' ∉ (hexLowerEncode b).toList := by
  have hdigit : ∀ n : Fin 16, Nat.digitChar n ≠ '\n' := by decide
  rw [toList_hexLowerEncode]
  intro h
  obtain ⟨x, -, hx⟩ := List.mem_flatMap.mp h
  have hlt := x.toNat_lt
  rw [toList_hexByte, List.mem_cons, List.mem_singleton] at hx
  rcases hx with hx | hx
  · exact hdigit ⟨x.toNat / 16, by omega⟩ hx.symm
  · exact hdigit ⟨x.toNat % 16, by omega⟩ hx.symm

/-! ## What a signed message says -/

section Fields

variable {sha256 : Bytes → Field 32} {c c' : NotifyEnvelope} {signed : Bytes}

theorem toList_notifyMessage (c : NotifyEnvelope) (bodyHash : String) :
    (notifyMessage c bodyHash).toList = "bingle-notify:v1\n".toList ++ (c.route.toList ++ '\n' ::
      ((c.iss.toList ++ '\n' :: (c.audience.toList ++ '\n' ::
        (bodyHash.toList ++ '\n' :: c.nonce.toList))) ++ '\n' :: (toString c.exp).toList)) := by
  unfold notifyMessage
  simp [String.toList_append, toString]

/-- The body and the message of an accepted route. -/
theorem notifySigned_ok (h : notifySigned sha256 c = .ok signed) :
    ∃ body, notifyBody c = .ok body ∧
      signed = utf8 "MX" ++ utf8 (notifyMessage c (hexLowerEncode (sha256 (utf8 body)).1)) := by
  obtain ⟨body, hbody, hsigned⟩ := Fallible.bind_eq_ok.mp h
  exact ⟨body, hbody, (Except.ok.inj hsigned).symm⟩

theorem lineFeeds_route {body : String} (h : notifyBody c = .ok body) : lineFeeds c.route = 0 := by
  unfold notifyBody at h
  split_ifs at h with hregister halert
  · rw [hregister]
    rfl
  · rw [halert]
    rfl

/-- The first and the last field of two equal messages are the same, and what stands between
them is. -/
theorem notifyMessage_ends {body body' hash hash' : String} (hbody : notifyBody c = .ok body)
    (hbody' : notifyBody c' = .ok body') (h : notifyMessage c hash = notifyMessage c' hash') :
    c.route = c'.route ∧ c.exp = c'.exp ∧
      c.iss.toList ++ '\n' :: (c.audience.toList ++ '\n' :: (hash.toList ++ '\n' :: c.nonce.toList))
        = c'.iss.toList ++ '\n' :: (c'.audience.toList ++ '\n' ::
          (hash'.toList ++ '\n' :: c'.nonce.toList)) := by
  have hlists := congrArg String.toList h
  rw [toList_notifyMessage, toList_notifyMessage] at hlists
  have hfields := List.append_cancel_left hlists
  have hcount : c.route.toList.count '\n' = c'.route.toList.count '\n' :=
    (lineFeeds_route hbody).trans (lineFeeds_route hbody').symm
  obtain ⟨hroute, hrest⟩ := append_cons_inj hcount hfields
  obtain ⟨hmiddle, hexp⟩ :=
    append_cons_inj_of_last (lineFeed_not_mem_exp _) (lineFeed_not_mem_exp _) hrest
  exact ⟨String.toList_inj.mp hroute, exp_of_toString (String.toList_inj.mp hexp), hmiddle⟩

/-- The fields between are found again where the line feeds of the first two are known. -/
theorem notifyMessage_middle {hash hash' : Bytes}
    (h : c.iss.toList ++ '\n' :: (c.audience.toList ++ '\n' ::
        ((hexLowerEncode hash).toList ++ '\n' :: c.nonce.toList))
      = c'.iss.toList ++ '\n' :: (c'.audience.toList ++ '\n' ::
        ((hexLowerEncode hash').toList ++ '\n' :: c'.nonce.toList)))
    (hiss : lineFeeds c.iss = lineFeeds c'.iss)
    (haudience : lineFeeds c.audience = lineFeeds c'.audience) :
    c.iss = c'.iss ∧ c.audience = c'.audience ∧ c.nonce = c'.nonce ∧
      hexLowerEncode hash = hexLowerEncode hash' := by
  obtain ⟨hiss, hrest⟩ := append_cons_inj hiss h
  obtain ⟨haudience, hrest⟩ := append_cons_inj haudience hrest
  have hcount : (hexLowerEncode hash).toList.count '\n'
      = (hexLowerEncode hash').toList.count '\n' := by
    rw [List.count_eq_zero_of_not_mem (lineFeed_not_mem_hex _),
      List.count_eq_zero_of_not_mem (lineFeed_not_mem_hex _)]
  obtain ⟨hhash, hnonce⟩ := append_cons_inj hcount hrest
  exact ⟨String.toList_inj.mp hiss, String.toList_inj.mp haudience, String.toList_inj.mp hnonce,
    String.toList_inj.mp hhash⟩

/-- The body of a registration tells the token and the environment where the line feeds of the
token are known. -/
theorem register_body_inj {body : String} (hroute : c.route = "register")
    (hroute' : c'.route = "register") (hbody : notifyBody c = .ok body)
    (hbody' : notifyBody c' = .ok body) :
    (c.token = c'.token ∧ c.env = c'.env) ↔ lineFeeds c.token = lineFeeds c'.token := by
  have hlines : ∀ c : NotifyEnvelope, c.route = "register" → notifyBody c = .ok body →
      body.toList = c.token.toList ++ '\n' :: c.env.toList := by
    intro c hroute hbody
    unfold notifyBody at hbody
    rw [if_pos hroute] at hbody
    rw [← Except.ok.inj hbody]
    simp [String.toList_append, toString]
  have hsame := (hlines c hroute hbody).symm.trans (hlines c' hroute' hbody')
  constructor
  · intro h
    rw [h.1]
  · intro h
    obtain ⟨htoken, henv⟩ := append_cons_inj h hsame
    exact ⟨String.toList_inj.mp htoken, String.toList_inj.mp henv⟩

/-- Two calls that sign the same bytes have the same route and expiry. Issuer, audience and nonce
are the same exactly when the issuers have equally many line feeds and the audiences have; then
registrations whose bodies do not collide have the same token and environment exactly when the
tokens have equally many. -/
theorem notify_fields_of_signed (h : notifySigned sha256 c = .ok signed)
    (h' : notifySigned sha256 c' = .ok signed) :
    c.route = c'.route ∧ c.exp = c'.exp ∧
    ((c.iss = c'.iss ∧ c.audience = c'.audience ∧ c.nonce = c'.nonce) ↔
      lineFeeds c.iss = lineFeeds c'.iss ∧ lineFeeds c.audience = lineFeeds c'.audience) ∧
    ((c.iss = c'.iss ∧ c.audience = c'.audience ∧ c.nonce = c'.nonce) → c.route = "register" →
      (∀ body body', notifyBody c = .ok body → notifyBody c' = .ok body' →
        sha256 (utf8 body) = sha256 (utf8 body') → utf8 body = utf8 body') →
      ((c.token = c'.token ∧ c.env = c'.env) ↔ lineFeeds c.token = lineFeeds c'.token)) := by
  obtain ⟨body, hbody, hsigned⟩ := notifySigned_ok h
  obtain ⟨body', hbody', hsigned'⟩ := notifySigned_ok h'
  have hmessage := utf8_injective (List.append_cancel_left (hsigned.symm.trans hsigned'))
  obtain ⟨hroute, hexp, hmiddle⟩ := notifyMessage_ends hbody hbody' hmessage
  refine ⟨hroute, hexp, ⟨fun hsame => ?_, fun hfeeds => ?_⟩, fun hsame hregister hcollision => ?_⟩
  · rw [hsame.1, hsame.2.1]
    exact ⟨rfl, rfl⟩
  · obtain ⟨hiss, haudience, hnonce, -⟩ := notifyMessage_middle hmiddle hfeeds.1 hfeeds.2
    exact ⟨hiss, haudience, hnonce⟩
  · have hhash := (notifyMessage_middle hmiddle (by rw [hsame.1]) (by rw [hsame.2.1])).2.2.2
    have hdigest : sha256 (utf8 body) = sha256 (utf8 body') := by
      apply Subtype.ext
      apply hexLowerEncode_injective _ hhash
      rw [(sha256 (utf8 body)).2, (sha256 (utf8 body')).2]
    rw [← utf8_injective (hcollision body body' hbody hbody' hdigest)] at hbody'
    exact register_body_inj hregister (hroute ▸ hregister) hbody hbody'

end Fields

/-- The SHA-256 digest of `x`, `y` and `z` on three lines. -/
def threeLinesDigest : Field 32 :=
  ⟨[0x6d, 0x42, 0x1e, 0xc4, 0xb6, 0x23, 0xaf, 0x3b, 0xdd, 0x47, 0xad, 0x1d, 0x61, 0xa6,
    0x29, 0xea, 0xb8, 0xc1, 0x1f, 0x7b, 0xf1, 0x9a, 0x1e, 0x59, 0x57, 0x6b, 0x5f, 0x2e,
    0xed, 0xe7, 0xbe, 0xfc],
    rfl⟩

/-- A registration from `alice`. -/
def sampleRegistration (token env : String) : NotifyEnvelope where
  route := "register"
  iss := "alice"
  audience := ""
  token := token
  env := env
  nonce := "n"
  exp := 1893456000

/-- Two registrations that are signed alike: their tokens differ in the number of line feeds. -/
theorem notify_fields_of_signed_registrations :
    (sampleRegistration "x\ny" "z").exp = (sampleRegistration "x" "y\nz").exp ∧
    (("x\ny" = "x" ∧ "z" = "y\nz") ↔ lineFeeds "x\ny" = lineFeeds "x") := by
  have hsame : notifySigned (fun _ => threeLinesDigest) (sampleRegistration "x" "y\nz")
      = notifySigned (fun _ => threeLinesDigest) (sampleRegistration "x\ny" "z") := by
    decide +kernel
  obtain ⟨signed, hsigned⟩ : ∃ signed, notifySigned (fun _ => threeLinesDigest)
      (sampleRegistration "x\ny" "z") = .ok signed := ⟨_, rfl⟩
  obtain ⟨-, hexp, -, hbody⟩ := notify_fields_of_signed hsigned (hsame.trans hsigned)
  refine ⟨hexp, hbody ⟨rfl, rfl, rfl⟩ rfl fun body body' h h' _ => ?_⟩
  have hbodies : notifyBody (sampleRegistration "x\ny" "z")
      = notifyBody (sampleRegistration "x" "y\nz") := by decide +kernel
  rw [Except.ok.inj (h.symm.trans (hbodies.trans h'))]

/-- The SHA-256 digest of the empty body. -/
def emptyDigest : Field 32 :=
  ⟨[0xe3, 0xb0, 0xc4, 0x42, 0x98, 0xfc, 0x1c, 0x14, 0x9a, 0xfb, 0xf4, 0xc8, 0x99, 0x6f,
    0xb9, 0x24, 0x27, 0xae, 0x41, 0xe4, 0x64, 0x9b, 0x93, 0x4c, 0xa4, 0x95, 0x99, 0x1b,
    0x78, 0x52, 0xb8, 0x55],
    rfl⟩

/-- An alert to `audience` from `iss`. -/
def sampleAlert (iss audience : String) : NotifyEnvelope where
  route := "alert"
  iss := iss
  audience := audience
  token := ""
  env := ""
  nonce := "n"
  exp := 1893456000

/-- A line feed moves from the issuer to the audience, and the bytes that are signed stay. -/
theorem notify_fields_not_determined :
    (∃ signed, notifySigned (fun _ => emptyDigest) (sampleAlert "a\nb" "c") = .ok signed ∧
      notifySigned (fun _ => emptyDigest) (sampleAlert "a" "b\nc") = .ok signed) ∧
    (sampleAlert "a\nb" "c").iss ≠ (sampleAlert "a" "b\nc").iss ∧
    (sampleAlert "a\nb" "c").audience ≠ (sampleAlert "a" "b\nc").audience := by
  have hsame : notifySigned (fun _ => emptyDigest) (sampleAlert "a" "b\nc")
      = notifySigned (fun _ => emptyDigest) (sampleAlert "a\nb" "c") := by decide +kernel
  exact ⟨⟨_, rfl, hsame⟩, by decide, by decide⟩

end BlockchainOps.Algo
