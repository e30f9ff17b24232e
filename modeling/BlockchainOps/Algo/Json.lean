import Mathlib.Algebra.Group.Int.Defs
import Mathlib.Algebra.Group.Nat.Defs
import BlockchainOps.Algo.Address
import BlockchainOps.Lib.Base64

/-!
# What the client reads out of a node's JSON

The replies of a node are turned into JSON values and searched field by field: for the state
entries of an application, the assets an account holds, the addresses an asset names. Fields
come in a snake-case or a kebab-case form.

A number is an integer of the `u64` or `i64` range, or a `float`; a float is never read.
-/

namespace BlockchainOps.Algo

/-- `serde_json::Value`. -/
inductive Json
  | null
  | bool (b : Bool)
  | int (n : ℤ)
  | float
  | str (s : String)
  | arr (items : List Json)
  | obj (fields : List (String × Json))

/-- `String::from_utf8`. -/
def fromUtf8 (b : Bytes) : Option String := String.fromUTF8? ⟨b.toArray⟩

/-- Two hexadecimal digits (`{:02x}`). -/
def hexByte (b : UInt8) : String :=
  String.ofList [Nat.digitChar (b.toNat / 16), Nat.digitChar (b.toNat % 16)]

namespace Json

def get : Json → String → Option Json
  | obj fields, key => fields.lookup key
  | _, _ => none

def asArray : Json → Option (List Json)
  | arr items => some items
  | _ => none

def asObject : Json → Option (List (String × Json))
  | obj fields => some fields
  | _ => none

def asStr : Json → Option String
  | str s => some s
  | _ => none

def asU64 : Json → Option ℕ
  | int (.ofNat n) => if n < 2 ^ 64 then some n else none
  | _ => none

def asI64 : Json → Option ℤ
  | int n => if -2 ^ 63 ≤ n ∧ n < 2 ^ 63 then some n else none
  | _ => none

end Json

/-- A field under its snake-case or its kebab-case name. -/
def jsonGet (o : Json) (k1 k2 : String) : Option Json := (o.get k1).or (o.get k2)

/-- The byte a JSON number stands for: its low eight bits, unless it is negative. -/
def jsonByte (n : Json) : Option UInt8 :=
  match n.asU64 with
  | some u => some (UInt8.ofNat u)
  | none =>
    match n.asI64 with
    | some i => if 0 ≤ i then some (UInt8.ofNat i.toNat) else none
    | none => none

/-- The `bytes` field of a state value: an array of numbers, or a base64 text. -/
def valueBytes (b64 : Base64) (valObj : Json) : Option Bytes :=
  match valObj.get "bytes" >>= Json.asArray with
  | some items => some (items.filterMap jsonByte)
  | none =>
    match valObj.get "bytes" >>= Json.asStr with
    | some text => (b64.decode text).toOption
    | none => none

/-- Bytes as a text: as UTF-8, else in hexadecimal. -/
def textOfBytes (bytes : Bytes) : String :=
  match fromUtf8 bytes with
  | some s => s
  | none => bytes.foldl (fun hex byte => hex ++ hexByte byte) "0x"

/-- The text of a state value. -/
def stateValue (b64 : Base64) (valObj : Json) : String :=
  let vtype := (valObj.get "type" >>= Json.asU64).getD 0
  if vtype = 1 then
    match valueBytes b64 valObj with
    | some bytes => textOfBytes bytes
    | none => ""
  else
    match valObj.get "uint" >>= Json.asU64 with
    | some u => toString u
    | none => "0"

/-- A state entry as key and value; an entry without a key or a value is skipped. -/
def decodeStateEntry (b64 : Base64) (entry : Json) :
    Option (String × String) := do
  let keyB64 ← entry.get "key" >>= Json.asStr
  let key :=
    match b64.decode keyB64 with
    | .ok bytes => (fromUtf8 bytes).getD keyB64
    | .error _ => keyB64
  let fields ← entry.get "value" >>= Json.asObject
  pure (key, stateValue b64 (.obj fields))

def decodeStateEntries (b64 : Base64) (entries : List Json) :
    List (String × String) :=
  entries.filterMap (decodeStateEntry b64)

/-- An array field, under either name; a missing one is empty. -/
def arrayField (o : Json) (k1 k2 : String) : List Json :=
  (jsonGet o k1 k2 >>= Json.asArray).getD []

/-- The local state an account holds for `appId`; `none` when it is not opted in. -/
def decodeAppLocalState (b64 : Base64) (accountJson : Json)
    (appId : ℕ) : Option (List (String × String)) := do
  let als ← jsonGet accountJson "apps_local_state" "apps-local-state" >>= Json.asArray
  let st ← als.find? fun st => st.get "id" >>= Json.asU64 |>.any (· = appId)
  pure (decodeStateEntries b64 (arrayField st "key_value" "key-value"))

/-- The asset a holding is of, zero if it names none. -/
def holdingAssetId (holding : Json) : ℕ :=
  (((holding.get "asset-id" >>= Json.asU64).or (holding.get "asset_id" >>= Json.asU64))).getD 0

/-- The holdings an account reply lists. -/
def holdings (accountJson : Json) : List Json :=
  (accountJson.get "assets" >>= Json.asArray).getD []

def parseHoldingAmountFromAccountValue (v : Json) (assetId : ℕ) : ℕ :=
  match (holdings v).find? fun holding => holdingAssetId holding = assetId with
  | some holding => (holding.get "amount" >>= Json.asU64).getD 0
  | none => 0

/-- A text field of the `params` object. -/
def paramStr (v : Json) (key : String) : Option String :=
  v.get "params" >>= fun p => p.get key >>= Json.asStr

def parseCreatorReserveFromAssetInfoValue (v : Json) : Option (String × String) := do
  let creator ← (paramStr v "creator").or (v.get "creator" >>= Json.asStr)
  let params ← v.get "params"
  let reserve ← (params.get "reserve" >>= Json.asStr).or
    ((params.get "reserve-address").or (params.get "reserve_address") >>= Json.asStr)
  pure (creator, reserve)

def parseAppCreatorFromAppInfoValue (v : Json) : Option String :=
  (paramStr v "creator").or (v.get "creator" >>= Json.asStr)

def parseClawbackFromAssetInfoValue (v : Json) : Option String :=
  (v.get "params" >>= fun p =>
    ((p.get "clawback").or ((p.get "clawback-address").or (p.get "clawback_address"))) >>=
      Json.asStr).filter fun s => !s.isEmpty

/-- The creator an asset reply names, in any of the places it may stand. -/
def assetCreator (v : Json) : Option String :=
  ((paramStr v "creator").or (v.get "creator" >>= Json.asStr)).or
    (v.get "params" >>= fun p =>
      (p.get "creator-address").or (p.get "creator_address") >>= Json.asStr)

end BlockchainOps.Algo
