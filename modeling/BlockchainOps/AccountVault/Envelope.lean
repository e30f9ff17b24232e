import BlockchainOps.Algo.Address

/-!
# Password-based encryption for key files

A key is derived from a password with Argon2id, and AES-256-GCM encrypts under it. The result is
a JSON envelope that carries the salt, the nonce, the cost and the ciphertext.

JSON, base64, Argon2 and AES-GCM belong to other packages and are parameters
(`EnvelopePrims`). The random draws and the environment variable that selects the fast cost are
arguments.
-/

namespace BlockchainOps.AccountVault

/-- `serde_json::Value`. Numbers that are not unsigned integers keep only their text. -/
inductive Json
  | null
  | bool (b : Bool)
  | posInt (n : UInt64)
  | otherNumber (text : String)
  | str (s : String)
  | arr (items : List Json)
  | obj (fields : List (String × Json))

namespace Json

/-- `Value::get` with a field name. -/
def get (j : Json) (field : String) : Option Json :=
  match j with
  | obj fields => fields.lookup field
  | _ => none

def asU64 : Json → Option UInt64
  | posInt n => some n
  | _ => none

def asStr : Json → Option String
  | str s => some s
  | _ => none

end Json

def saltLen : ℕ := 16
def nonceLen : ℕ := 12
def keyLen : ℕ := 32

/-- A derived key. -/
abbrev Key : Type := { bytes : Bytes // bytes.length = keyLen }

/-- A nonce of the cipher. -/
abbrev Nonce : Type := { bytes : Bytes // bytes.length = nonceLen }

/-- The salt and the nonce drawn for one encryption. -/
structure Draw where
  salt : Bytes
  nonce : Nonce
  salt_length : salt.length = saltLen

/-- The cost of Argon2id: memory in KiB, iterations, parallelism. -/
structure Argon2Cost where
  m : UInt32
  t : UInt32
  p : UInt32
deriving DecidableEq, Repr

/-- What the encryption takes from other packages. -/
structure EnvelopePrims where
  /-- `serde_json::from_slice`. -/
  fromSlice : Bytes → Except String Json
  /-- `serde_json::to_vec_pretty`. -/
  toVecPretty : Json → Except String Bytes
  b64Encode : Bytes → String
  b64Decode : String → Except String Bytes
  /-- `Params::new` with an output of 32 bytes. -/
  argon2Params : Argon2Cost → Except String Unit
  /-- `hash_password_into` of a password and a salt. -/
  argon2id : Argon2Cost → Bytes → Bytes → Except String Key
  aesEncrypt : Key → Nonce → Bytes → Except String Bytes
  aesDecrypt : Key → Nonce → Bytes → Option Bytes

inductive EnvelopeError
  | params (e : String)
  | derivation (e : String)
  | encryption (e : String)
  | toJson (e : String)
  | notJson (e : String)
  | notEnvelope
  | missingCost
  | missingField (field : String)
  | notBase64 (field : String)
  | nonceLength
  | decryption
  | costTooLarge (cost : String)
  | tooShort
  | unsupportedVersion (version : UInt8)
  | secretDecryption
deriving DecidableEq, Repr

/-- The `Display` form. -/
def EnvelopeError.display : EnvelopeError → String
  | params e => s!"invalid argon2 params: {e}"
  | derivation e => s!"argon2 key derivation failed: {e}"
  | encryption e => s!"AES-256-GCM encryption failed: {e}"
  | toJson e => e
  | notJson _ => "encrypted file is not valid JSON"
  | notEnvelope => "file is not a bingle encrypted envelope"
  | missingCost => "envelope is missing argon2 cost parameters"
  | missingField field => s!"envelope is missing '{field}' field"
  | notBase64 field => s!"envelope '{field}' is not valid base64"
  | nonceLength => "envelope nonce has wrong length"
  | decryption => "decryption failed (wrong password or corrupted file)"
  | costTooLarge cost => s!"argon2 {cost} too large for secret blob"
  | tooShort => "encrypted secret is too short"
  | unsupportedVersion v => s!"unsupported encrypted secret version {v.toNat}"
  | secretDecryption => "decryption failed (wrong password or corrupted secret)"

/-- Marker written into every envelope. -/
def envelopeMarker : UInt64 := 1

/-- The cost for new encryptions; `fastKdf` says whether the variable that lowers it is set. -/
def argon2Cost (fastKdf : Bool) : Argon2Cost :=
  if fastKdf then ⟨8, 1, 1⟩ else ⟨64 * 1024, 3, 1⟩

variable (p : EnvelopePrims)

/-- Derive a key from a password and a salt under an explicit cost. -/
def deriveKeyWith (password : String) (salt : Bytes) (cost : Argon2Cost) :
    Except EnvelopeError Key := do
  (p.argon2Params cost).mapError .params
  (p.argon2id cost (utf8 password) salt).mapError .derivation

/-- Encrypt `plaintext` under `password`; the envelope's bytes. -/
def encryptBytes (fastKdf : Bool) (draw : Draw) (plaintext : Bytes) (password : String) :
    Except EnvelopeError Bytes := do
  let cost := argon2Cost fastKdf
  let key ← deriveKeyWith p password draw.salt cost
  let ciphertext ← (p.aesEncrypt key draw.nonce plaintext).mapError .encryption
  let envelope := Json.obj
    [("bingle_encrypted", .posInt envelopeMarker), ("kdf", .str "argon2id"),
      ("m", .posInt cost.m.toUInt64), ("t", .posInt cost.t.toUInt64),
      ("p", .posInt cost.p.toUInt64), ("salt", .str (p.b64Encode draw.salt)),
      ("nonce", .str (p.b64Encode draw.nonce.1)),
      ("ciphertext", .str (p.b64Encode ciphertext))]
  (p.toVecPretty envelope).mapError .toJson

/-- A base64 field of an envelope. -/
def decodeField (json : Json) (field : String) : Except EnvelopeError Bytes :=
  match (json.get field).bind Json.asStr with
  | none => .error (.missingField field)
  | some s => (p.b64Decode s).mapError fun _ => .notBase64 field

/-- The cost an envelope names, narrowed to 32 bits. -/
def envelopeCost (json : Json) : Except EnvelopeError Argon2Cost :=
  match (json.get "m").bind Json.asU64, (json.get "t").bind Json.asU64,
    (json.get "p").bind Json.asU64 with
  | some m, some t, some p => .ok ⟨m.toUInt32, t.toUInt32, p.toUInt32⟩
  | _, _, _ => .error .missingCost

/-- Whether a JSON value carries the marker. -/
def hasMarker (json : Json) : Bool :=
  (json.get "bingle_encrypted").bind Json.asU64 = some envelopeMarker

/-- Decrypt an envelope. -/
def decryptBytes (envelope : Bytes) (password : String) : Except EnvelopeError Bytes := do
  let json ← (p.fromSlice envelope).mapError .notJson
  if !hasMarker json then .error .notEnvelope
  let cost ← envelopeCost json
  let salt ← decodeField p json "salt"
  let nonceBytes ← decodeField p json "nonce"
  let ciphertext ← decodeField p json "ciphertext"
  if h : nonceBytes.length = nonceLen then
    let key ← deriveKeyWith p password salt cost
    match p.aesDecrypt key ⟨nonceBytes, h⟩ ciphertext with
    | some plaintext => .ok plaintext
    | none => .error .decryption
  else .error .nonceLength

/-- Whether `bytes` is an envelope. -/
def isEncryptedEnvelope (bytes : Bytes) : Bool :=
  match p.fromSlice bytes with
  | .ok json => hasMarker json
  | .error _ => false

/-! ## Compact secrets -/

/-- `u32::to_le_bytes`. -/
def toLeBytes (n : UInt32) : Bytes :=
  [n.toUInt8, (n >>> 8).toUInt8, (n >>> 16).toUInt8, (n >>> 24).toUInt8]

/-- `u32::from_le_bytes`. -/
def fromLeBytes (b₀ b₁ b₂ b₃ : UInt8) : UInt32 :=
  b₀.toUInt32 ||| b₁.toUInt32 <<< 8 ||| b₂.toUInt32 <<< 16 ||| b₃.toUInt32 <<< 24

/-- Version byte of the compact format. -/
def secretVersion : UInt8 := 1

/-- Version, memory cost, time cost and parallelism. -/
def secretHeaderLen : ℕ := 7

/-- A cost that fits in a byte. -/
def narrowCost (cost : UInt32) (name : String) : Except EnvelopeError UInt8 :=
  if cost.toNat < 256 then .ok cost.toUInt8 else .error (.costTooLarge name)

/-- Encrypt a small secret into a binary blob: version, costs, salt, nonce and ciphertext. -/
def encryptSecret (fastKdf : Bool) (draw : Draw) (plaintext : Bytes) (password : String) :
    Except EnvelopeError Bytes := do
  let cost := argon2Cost fastKdf
  let key ← deriveKeyWith p password draw.salt cost
  let ciphertext ← (p.aesEncrypt key draw.nonce plaintext).mapError .encryption
  let t ← narrowCost cost.t "t_cost"
  let parallelism ← narrowCost cost.p "p_cost"
  .ok (secretVersion :: (toLeBytes cost.m ++ t :: parallelism ::
    (draw.salt ++ (draw.nonce.1 ++ ciphertext))))

/-- Decrypt a blob. Its costs are its own; the environment is not asked. -/
def decryptSecret (blob : Bytes) (password : String) : Except EnvelopeError Bytes :=
  if blob.length < secretHeaderLen + saltLen + nonceLen then .error .tooShort
  else if blob.getD 0 0 ≠ secretVersion then .error (.unsupportedVersion (blob.getD 0 0))
  else do
    let m := fromLeBytes (blob.getD 1 0) (blob.getD 2 0) (blob.getD 3 0) (blob.getD 4 0)
    let cost : Argon2Cost := ⟨m, (blob.getD 5 0).toUInt32, (blob.getD 6 0).toUInt32⟩
    let salt := (blob.drop secretHeaderLen).take saltLen
    let nonceBytes := (blob.drop (secretHeaderLen + saltLen)).take nonceLen
    let ciphertext := blob.drop (secretHeaderLen + saltLen + nonceLen)
    if h : nonceBytes.length = nonceLen then
      let key ← deriveKeyWith p password salt cost
      match p.aesDecrypt key ⟨nonceBytes, h⟩ ciphertext with
      | some plaintext => .ok plaintext
      | none => .error .secretDecryption
    -- not reached: the blob is long enough
    else .error .tooShort

end BlockchainOps.AccountVault
