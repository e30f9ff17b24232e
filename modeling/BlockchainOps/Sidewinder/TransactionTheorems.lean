import BlockchainOps.Algo.LocalState
import BlockchainOps.Lib.Fallible
import BlockchainOps.Sidewinder.Transaction

/-!
# What a built transaction carries

A transaction is built only from an admissible request, and the signer is called only then. What
it carries is read back from its bytes: the decoded body gives back the request and the sender,
and writing that body again gives the bytes that were hashed and signed.
-/

namespace BlockchainOps.Sidewinder

open Effect Proc MessagePack Wire Fallible

/-- What building asks of a request. -/
structure Admissible (request : TransactionRequest) : Prop where
  window : request.firstValid ≤ request.lastValid
  length_instance : request.instanceId.length = hashBytes
  length_group : ∀ group, request.group = some group → group.length = hashBytes

/-- The value under a field's name. -/
def lookup (name : String) (entries : List (Value × Value)) : Option Value :=
  (entries.find? fun entry =>
    match entry.1 with
    | .str key => key = utf8 name
    | _ => false).map (·.2)

/-- The names of a body's fields. -/
def bodyFields : List String := ["args", "fee", "fv", "grp", "inst", "lv", "note", "snd", "typ"]

/-- The entries of a body's map give back a request and its sender, and nothing else, under keys
in ascending order. -/
structure Carries (entries : List (Value × Value)) (request : TransactionRequest)
    (sender : Field 32) : Prop where
  ascending : ∃ keys : List Bytes, entries.map (·.1) = keys.map .str ∧ keys.Pairwise (· < ·) ∧
    ∀ key ∈ keys, ∃ name ∈ bodyFields, key = utf8 name
  txnType : lookup "typ" entries = some (.uint request.txnType.toNat)
  fee : lookup "fee" entries = some (.uint request.maxFee.toNat)
  firstValid : lookup "fv" entries = some (.uint request.firstValid.toNat)
  lastValid : lookup "lv" entries = some (.uint request.lastValid.toNat)
  instanceId : lookup "inst" entries = some (.bin request.instanceId)
  group : lookup "grp" entries = request.group.map .bin
  note : lookup "note" entries = request.note.map .bin
  sender : lookup "snd" entries = some (.bin sender.1)
  args : lookup "args" entries = some (.array (request.args.map fun arg => .bin arg.toBytes))

/-! ## The body of a request -/

theorem requireHash_ok_iff {operation fieldName : String} {bytes b : Bytes} :
    requireHash operation fieldName bytes = .ok b ↔ bytes.length = hashBytes ∧ b = bytes := by
  unfold requireHash
  split_ifs with h
  · simp [h]
  · rw [not_not] at h
    simp [h, eq_comm]

/-- The body that a request and a sender make. -/
def body (request : TransactionRequest) (sender : Bytes) : TransactionBodyWire where
  args := request.args.map Algo.AppArg.toBytes
  fee := request.maxFee
  fv := request.firstValid
  grp := request.group
  inst := request.instanceId
  lv := request.lastValid
  note := request.note
  snd := sender
  typ := request.txnType

/-- The checks pass exactly the admissible requests. -/
theorem bodyOf_ok_iff {operation : String} {request : TransactionRequest} {sender : Bytes}
    {w : TransactionBodyWire} :
    bodyOf operation request sender = .ok w ↔ Admissible request ∧ w = body request sender := by
  have hwindow : ¬ request.lastValid < request.firstValid ↔
      request.firstValid ≤ request.lastValid := UInt64.not_lt
  unfold bodyOf
  simp only [refuse_eq_ok, hwindow]
  rcases hgroup : request.group with _ | group
  · simp only [bind_eq_ok, requireHash_ok_iff, Except.ok.injEq]
    constructor
    · rintro ⟨hle, _, rfl, inst, ⟨hinst, rfl⟩, rfl⟩
      refine ⟨⟨hle, hinst, fun g hg => absurd (hgroup.symm.trans hg) (by simp)⟩, ?_⟩
      rw [body, hgroup]
    · rintro ⟨hadm, rfl⟩
      refine ⟨hadm.window, none, rfl, _, ⟨hadm.length_instance, rfl⟩, ?_⟩
      rw [body, hgroup]
  · have hmap : ∀ grp, Except.map some (requireHash operation "group" group) = .ok grp ↔
        group.length = hashBytes ∧ grp = some group := by
      intro grp
      unfold requireHash
      split_ifs with h
      · simp [Except.map, h]
      · rw [not_not] at h
        simp [Except.map, h, eq_comm]
    simp only [bind_eq_ok, requireHash_ok_iff, Except.ok.injEq, hmap]
    constructor
    · rintro ⟨hle, _, ⟨hlen, rfl⟩, inst, ⟨hinst, rfl⟩, rfl⟩
      refine ⟨⟨hle, hinst, fun g hg => ?_⟩, ?_⟩
      · rw [← Option.some.inj (hgroup.symm.trans hg)]
        exact hlen
      · rw [body, hgroup]
    · rintro ⟨hadm, rfl⟩
      refine ⟨hadm.window, some group, ⟨hadm.length_group group hgroup, rfl⟩, _,
        ⟨hadm.length_instance, rfl⟩, ?_⟩
      rw [body, hgroup]

/-! ## The entries of a body -/

@[simp] theorem lookup_nil (name : String) : lookup name [] = none := rfl

@[simp] theorem lookup_field (name other : String) (value : Value)
    (entries : List (Value × Value)) :
    lookup name (field other value :: entries)
      = if other = name then some value else lookup name entries := by
  have hkey : decide (utf8 other = utf8 name) = decide (other = name) :=
    decide_eq_decide.mpr ⟨Algo.utf8_injective, congrArg utf8⟩
  unfold lookup
  rw [List.find?_cons]
  show (match decide (utf8 other = utf8 name) with
    | true => some (field other value)
    | false => entries.find? _).map (fun entry : Value × Value => entry.2) = _
  rw [hkey]
  split_ifs with h
  · rw [decide_eq_true h]
    rfl
  · rw [decide_eq_false h]

@[simp] theorem lookup_optionalField (name other : String) (value : Option Value)
    (entries : List (Value × Value)) :
    lookup name (optionalField other value ++ entries)
      = if other = name then value.or (lookup name entries) else lookup name entries := by
  rcases value with _ | value
  · simp [optionalField]
  · simp [optionalField]

/-- The entries of a body's map. -/
def bodyEntries (w : TransactionBodyWire) : List (Value × Value) :=
  field "args" (.array (w.args.map .bin)) :: field "fee" (.uint w.fee.toNat)
    :: field "fv" (.uint w.fv.toNat) :: (optionalField "grp" (w.grp.map .bin)
    ++ field "inst" (.bin w.inst) :: field "lv" (.uint w.lv.toNat)
    :: (optionalField "note" (w.note.map .bin)
    ++ [field "snd" (.bin w.snd), field "typ" (.uint w.typ.toNat)]))

theorem value_eq (w : TransactionBodyWire) : w.value = .map (bodyEntries w) := by
  unfold TransactionBodyWire.value bodyEntries
  simp

/-- The keys of a body stand in ascending order. -/
theorem bodyEntries_ascending (w : TransactionBodyWire) : ∃ keys : List Bytes,
    (bodyEntries w).map (·.1) = keys.map .str ∧ keys.Pairwise (· < ·) ∧
      ∀ key ∈ keys, ∃ name ∈ bodyFields, key = utf8 name := by
  have hsub : ∀ names : List String, names.Sublist bodyFields →
      (names.map utf8).Pairwise (· < ·) ∧
        ∀ key ∈ names.map utf8, ∃ name ∈ bodyFields, key = utf8 name := by
    intro names hnames
    have hall : (bodyFields.map utf8).Pairwise (· < ·) := by decide +kernel
    refine ⟨hall.sublist (hnames.map utf8), fun key hkey => ?_⟩
    obtain ⟨name, hname, rfl⟩ := List.mem_map.mp hkey
    exact ⟨name, hnames.subset hname, rfl⟩
  unfold bodyEntries
  rcases w.grp with _ | grp <;> rcases w.note with _ | note
  · exact ⟨["args", "fee", "fv", "inst", "lv", "snd", "typ"].map utf8, rfl, hsub _ (by decide)⟩
  · exact ⟨["args", "fee", "fv", "inst", "lv", "note", "snd", "typ"].map utf8, rfl,
      hsub _ (by decide)⟩
  · exact ⟨["args", "fee", "fv", "grp", "inst", "lv", "snd", "typ"].map utf8, rfl,
      hsub _ (by decide)⟩
  · exact ⟨bodyFields.map utf8, rfl, hsub _ (List.Sublist.refl _)⟩

/-- The body of a request carries it. -/
theorem bodyEntries_carries (request : TransactionRequest) (sender : Field 32) :
    Carries (bodyEntries (body request sender.1)) request sender := by
  have hargs : (request.args.map Algo.AppArg.toBytes).map Value.bin
      = request.args.map fun arg => .bin arg.toBytes := by
    rw [List.map_map]
    rfl
  refine ⟨bodyEntries_ascending _, ?_, ?_, ?_, ?_, ?_, ?_, ?_, ?_, ?_⟩
  all_goals simp [bodyEntries, body]

/-! ## The signed transaction -/

/-- A request that is not admissible is refused, and the signer is not called. -/
theorem buildSigned_refuses {p : WirePrims} {operation : String} {request : TransactionRequest}
    {sender : Field 32} (h : ¬ Admissible request) :
    ∃ e, ∀ {σ : Type} (sign : Bytes → Proc σ Error (Field 64)) (s : σ),
      buildSigned p operation request sender sign s = (.err e, s) := by
  rcases hbody : bodyOf operation request sender.1 with e | w
  · refine ⟨e, fun sign s => ?_⟩
    unfold buildSigned
    rw [hbody]
    rfl
  · exact absurd (bodyOf_ok_iff.mp hbody).1 h

/-- How a transaction was built: from an admissible request, with the identifier and the
signature of the body's bytes. -/
theorem buildSigned_ok {p : WirePrims} {operation : String} {request : TransactionRequest}
    {sender : Field 32} {σ : Type} {sign : Bytes → Proc σ Error (Field 64)}
    {s s' : σ} {signed : SignedTransaction}
    (h : buildSigned p operation request sender sign s = (.ok signed, s')) :
    Admissible request ∧ ∃ bodyBytes signature,
      p.serialize (body request sender.1).value = .ok bodyBytes ∧
      sign bodyBytes s = (.ok signature, s') ∧
      signed.txId = contentAddress p bodyBytes ∧
      p.serialize (SignedTransactionWire.value ⟨body request sender.1, signature.1⟩)
        = .ok signed.bytes := by
  unfold buildSigned at h
  simp only [bind_ok_iff, ofExcept_ok_iff, pure_apply, Prod.mk.injEq, Outcome.ok.injEq] at h
  obtain ⟨w, _, ⟨hbody, rfl⟩, bodyBytes, _, ⟨hbytes, rfl⟩, signature, s₁, hsign, bytes, _,
    ⟨henvelope, rfl⟩, rfl, rfl⟩ := h
  obtain ⟨hadm, rfl⟩ := bodyOf_ok_iff.mp hbody
  exact ⟨hadm, bodyBytes, signature, mapError_eq_ok.mp hbytes, hsign, rfl,
    mapError_eq_ok.mp henvelope⟩

/-- A built transaction decodes to what was asked for: only an admissible request is built, and
the signer is called only then; the returned bytes are a map of the body and its signature, the
body carries the request and the sender, and encoding the body again gives the bytes that were
hashed into the identifier and handed to the signer. -/
theorem buildSigned_decodes {p : WirePrims}
    (hserialize : ∀ v b, p.serialize v = .ok b → encode v = some b)
    (operation : String) (request : TransactionRequest) (sender : Field 32) :
    (¬ Admissible request →
      ∃ e, ∀ {σ : Type} (sign : Bytes → Proc σ Error (Field 64)) (s : σ),
        buildSigned p operation request sender sign s = (.err e, s)) ∧
    ∀ {σ : Type} (sign : Bytes → Proc σ Error (Field 64)) (s s' : σ)
      (signed : SignedTransaction),
      buildSigned p operation request sender sign s = (.ok signed, s') →
        Admissible request ∧ ∃ entries bodyBytes signature,
          decode signed.bytes = some (.map
            [(.str (utf8 "txn"), .map entries), (.str (utf8 "sig"), .bin signature.1)]) ∧
          Carries entries request sender ∧
          encode (.map entries) = some bodyBytes ∧
          signed.txId = contentAddress p bodyBytes ∧
          sign bodyBytes s = (.ok signature, s') := by
  refine ⟨buildSigned_refuses, fun sign s s' signed h => ?_⟩
  obtain ⟨hadm, bodyBytes, signature, hbody, hsign, htxId, henvelope⟩ := buildSigned_ok h
  refine ⟨hadm, bodyEntries (body request sender.1), bodyBytes, signature, ?_,
    bodyEntries_carries request sender, ?_, htxId, hsign⟩
  · rw [decode_encode (hserialize _ _ henvelope)]
    unfold SignedTransactionWire.value
    rw [value_eq]
    rfl
  · rw [← value_eq]
    exact hserialize _ _ hbody

/-! ## A transaction of one operation -/

/-- A request with two arguments and a note, in no group. -/
def slotSet : TransactionRequest where
  txnType := 2
  args := [.bytes (Wire.beBytes 8 1234), .bytes (utf8 "hello")]
  maxFee := 1000
  firstValid := 0
  lastValid := 5000000
  instanceId := (List.range 32).map UInt8.ofNat
  note := some [7, 0, 0, 0, 0, 0, 0, 0]
  group := none

def slotSender : Field 32 := .range 32

/-- The digest of the request's body. -/
def slotDigest : Bytes :=
  [0x50, 0xb5, 0x58, 0x49, 0xee, 0x1e, 0xa1, 0x5e, 0x33, 0x6d, 0x75, 0x8d, 0x3c, 0xa3, 0x0d, 0x51,
    0x64, 0x28, 0xf0, 0x87, 0xe1, 0xae, 0xd9, 0xd0, 0x59, 0x5b, 0x2c, 0xc0, 0x4b, 0xdb, 0xd9, 0x40]

/-- The serializer, and the digest on the one body. -/
def slotPrims : WirePrims where
  serialize v :=
    match encode v with
    | some b => .ok b
    | none => .error "too long"
  sha512_256 b :=
    if some b = encode (body slotSet slotSender.1).value then slotDigest
    else List.replicate 32 0

/-- A signer that counts its calls. -/
def countingSigner (_ : Bytes) : Proc ℕ Error (Field 64) :=
  fun calls => (.ok (.replicate 64 0), calls + 1)

/-- The request is built with one call of the signer. -/
theorem slotSet_built : ∃ signed,
    buildSigned slotPrims "build_signed_transaction" slotSet slotSender countingSigner 0
      = (.ok signed, 1) ∧
    signed.txId = "50b55849ee1ea15e336d758d3ca30d516428f087e1aed9d0595b2cc04bdbd940" := by
  have hrun : (buildSigned slotPrims "build_signed_transaction" slotSet slotSender
        countingSigner 0).1.map SignedTransaction.txId
        = .ok "50b55849ee1ea15e336d758d3ca30d516428f087e1aed9d0595b2cc04bdbd940" ∧
      (buildSigned slotPrims "build_signed_transaction" slotSet slotSender
        countingSigner 0).2 = 1 := by
    decide +kernel
  obtain ⟨signed, hsigned, htxId⟩ := Outcome.map_eq_ok.mp hrun.1
  exact ⟨signed, Prod.ext hsigned hrun.2, htxId⟩

/-- The built transaction decodes to the request. -/
theorem buildSigned_decodes_slotSet :
    ∃ (signed : SignedTransaction) (entries : List (Value × Value)) (bodyBytes signature : Bytes),
    decode signed.bytes = some (.map
      [(.str (utf8 "txn"), .map entries), (.str (utf8 "sig"), .bin signature)]) ∧
    Carries entries slotSet slotSender ∧ encode (.map entries) = some bodyBytes ∧
    signed.txId = contentAddress slotPrims bodyBytes := by
  have hserialize : ∀ v b, slotPrims.serialize v = .ok b → encode v = some b := by
    intro v b h
    simp only [slotPrims] at h
    split at h
    · rename_i hencode
      rw [hencode, Except.ok.inj h]
    · exact absurd h (by simp)
  obtain ⟨signed, hbuilt, -⟩ := slotSet_built
  obtain ⟨-, entries, bodyBytes, signature, hdecode, hcarries, hbody, htxId, -⟩ :=
    (buildSigned_decodes hserialize "build_signed_transaction" slotSet slotSender).2
      countingSigner 0 1 signed hbuilt
  exact ⟨signed, entries, bodyBytes, signature.1, hdecode, hcarries, hbody, htxId⟩

end BlockchainOps.Sidewinder
