import BlockchainOps.Lib.Effect
import BlockchainOps.Lib.MessagePack
import BlockchainOps.Algo.Arc4

/-!
# Building, encoding and signing a Sidewinder transaction

`buildSigned` checks a request, writes its body in canonical MessagePack, hashes the body to the
transaction's identifier, has it signed, and writes the envelope. The serializer and the hash are
parameters; the signer is a procedure of the caller.
-/

namespace BlockchainOps.Sidewinder

open Effect Proc MessagePack Wire

/-! ## Errors -/

inductive SidewinderErrorKind
  | hostUnreachable
  | transientFailure
  | unauthorized
  | identityRefused
  | notFound
  | badRequest
  | unexpectedStatus
  | malformedResponse
  | invalidTransaction
deriving DecidableEq, Repr

structure SidewinderError where
  kind : SidewinderErrorKind
  operation : String
  status : Option ℕ
  message : String
deriving DecidableEq, Repr

def SidewinderError.invalidTransaction (operation message : String) : SidewinderError :=
  { kind := .invalidTransaction, operation, status := none, message }

/-- `anyhow::Error`: an error of this client, or one of the Algorand client. -/
inductive Error
  | sidewinder (e : SidewinderError)
  | algo (e : Algo.Error)
deriving DecidableEq, Repr

/-! ## Requests -/

/-- The number of bytes of an instance identifier, a group identifier or a sender key. -/
def hashBytes : ℕ := 32

/-- A transaction to build. The source calls `instanceId` `instance`. -/
structure TransactionRequest where
  txnType : UInt32
  args : List Algo.AppArg
  maxFee : UInt64
  firstValid : UInt64
  lastValid : UInt64
  instanceId : Bytes
  note : Option Bytes
  group : Option Bytes
deriving DecidableEq, Repr

structure SignedTransaction where
  txId : String
  bytes : Bytes
deriving DecidableEq, Repr

/-! ## The wire form -/

structure TransactionBodyWire where
  args : List Bytes
  fee : UInt64
  fv : UInt64
  grp : Option Bytes
  inst : Bytes
  lv : UInt64
  note : Option Bytes
  snd : Bytes
  typ : UInt32
deriving DecidableEq, Repr

structure SignedTransactionWire where
  txn : TransactionBodyWire
  sig : Bytes
deriving DecidableEq, Repr

/-- A field of a struct: its name and its value. -/
def field (name : String) (value : Value) : Value × Value := (.str (utf8 name), value)

/-- A field that is left out when it is absent. -/
def optionalField (name : String) (value : Option Value) : List (Value × Value) :=
  match value with
  | some value => [field name value]
  | none => []

/-- How the body serializes: a map of its fields in their order. -/
def TransactionBodyWire.value (w : TransactionBodyWire) : Value :=
  .map (
    [field "args" (.array (w.args.map .bin)), field "fee" (.uint w.fee.toNat),
      field "fv" (.uint w.fv.toNat)]
    ++ optionalField "grp" (w.grp.map .bin)
    ++ [field "inst" (.bin w.inst), field "lv" (.uint w.lv.toNat)]
    ++ optionalField "note" (w.note.map .bin)
    ++ [field "snd" (.bin w.snd), field "typ" (.uint w.typ.toNat)])

/-- How the envelope serializes. -/
def SignedTransactionWire.value (w : SignedTransactionWire) : Value :=
  .map [field "txn" w.txn.value, field "sig" (.bin w.sig)]

/-- What building takes from other packages. -/
structure WirePrims where
  /-- The MessagePack serializer with struct maps. -/
  serialize : Value → Except String Bytes
  sha512_256 : Bytes → Bytes

/-- Encode as canonical MessagePack. -/
def toCanonical (p : WirePrims) (operation : String) (value : Value) : Except Error Bytes :=
  (p.serialize value).mapError fun e =>
    .sidewinder (.invalidTransaction operation s!"canonical encode failed: {e}")

/-- Two lower-case hexadecimal digits (`{:02x}`). -/
def hex2 (b : UInt8) : String :=
  String.ofList [Nat.digitChar (b.toNat / 16), Nat.digitChar (b.toNat % 16)]

/-- The content address: lower-case hexadecimal of the digest. -/
def contentAddress (p : WirePrims) (bytes : Bytes) : String :=
  String.join ((p.sha512_256 bytes).map hex2)

/-- Check that a field is exactly 32 bytes. -/
def requireHash (operation fieldName : String) (bytes : Bytes) : Except Error Bytes :=
  if bytes.length ≠ hashBytes then
    .error (.sidewinder (.invalidTransaction operation
      s!"`{fieldName}` must be {hashBytes} bytes, got {bytes.length}"))
  else .ok bytes

/-- The body of a request, once its checks pass. -/
def bodyOf (operation : String) (request : TransactionRequest) (sender : Bytes) :
    Except Error TransactionBodyWire := do
  if request.lastValid < request.firstValid then
    .error (.sidewinder (.invalidTransaction operation
      s!"validity window inverted: last_valid {request.lastValid} precedes first_valid {request.firstValid}"))
  let grp ← match request.group with
    | some bytes => (requireHash operation "group" bytes).map some
    | none => .ok none
  let inst ← requireHash operation "instance" request.instanceId
  .ok {
    args := request.args.map Algo.AppArg.toBytes
    fee := request.maxFee
    fv := request.firstValid
    grp
    inst
    lv := request.lastValid
    note := request.note
    snd := sender
    typ := request.txnType }

/-- Build, encode and sign. -/
def buildSigned {σ : Type} (p : WirePrims) (operation : String) (request : TransactionRequest)
    (sender : Field 32) (sign : Bytes → Proc σ Error (Field 64)) :
    Proc σ Error SignedTransaction := do
  let body ← ofExcept (bodyOf operation request sender.1)
  let bodyBytes ← ofExcept (toCanonical p operation body.value)
  let txId := contentAddress p bodyBytes
  let signature ← sign bodyBytes
  let signed : SignedTransactionWire := { txn := body, sig := signature.1 }
  let bytes ← ofExcept (toCanonical p operation signed.value)
  return { txId, bytes }

end BlockchainOps.Sidewinder
