import BlockchainOps.Algo.Json

/-!
# Local state and its flat form

On chain, an account's local state maps byte-string keys to values that are either a `uint` or a
byte string. A node serves it as JSON, and `decodeStateEntries` flattens it to pairs of texts:
a key that is not UTF-8 becomes its base64 text, a `uint` its decimal text, a byte string its
UTF-8 text or its hexadecimal form.

`decodeStateEntries_toJson` says what the flat form of a state is. Texts of different kinds can
agree, so the flat form does not tell the kinds apart.
-/

namespace BlockchainOps.Algo

/-! ## UTF-8 -/

theorem fromUtf8_eq_some_iff {b : Bytes} {s : String} : fromUtf8 b = some s ↔ utf8 s = b := by
  unfold fromUtf8 utf8 String.fromUTF8?
  constructor
  · intro h
    split_ifs at h with hvalid
    rw [← Option.some.inj h]
    rfl
  · intro h
    have hbytes : (⟨b.toArray⟩ : ByteArray) = s.toUTF8 := by
      rw [← h]
    have hvalid : (⟨b.toArray⟩ : ByteArray).IsValidUTF8 := by
      rw [hbytes]
      exact s.isValidUTF8
    rw [dif_pos hvalid]
    congr 1
    rw [← String.toByteArray_inj]
    exact hbytes

@[simp] theorem fromUtf8_utf8 (s : String) : fromUtf8 (utf8 s) = some s :=
  fromUtf8_eq_some_iff.mpr rfl

theorem utf8_injective {s t : String} (h : utf8 s = utf8 t) : s = t := by
  have hs := fromUtf8_utf8 s
  rw [h, fromUtf8_utf8 t, Option.some.injEq] at hs
  exact hs.symm

/-! ## States on chain -/

/-- A value in local state. -/
inductive TealValue
  | uint (n : UInt64)
  | bytes (b : Bytes)
deriving DecidableEq, Repr

structure TealEntry where
  key : Bytes
  value : TealValue
deriving DecidableEq, Repr

/-- An account's local state: its entries have distinct keys. -/
structure LocalState where
  entries : List TealEntry
  keys_nodup : (entries.map TealEntry.key).Nodup

/-- How a serializer writes a byte string. -/
inductive BytesForm
  | text
  | numbers
deriving DecidableEq, Repr

/-- A byte string in JSON. -/
def bytesJson (b64 : Base64) (form : BytesForm) (b : Bytes) : Json :=
  match form with
  | .text => .str (b64.encode b)
  | .numbers => .arr (b.map fun byte => .int byte.toNat)

/-- A value as a node serves it: type 1 is a byte string, type 2 a `uint`. -/
def TealValue.toJson (b64 : Base64) (form : BytesForm) : TealValue → Json
  | bytes b => .obj [("type", .int 1), ("bytes", bytesJson b64 form b), ("uint", .int 0)]
  | uint n => .obj [("type", .int 2), ("bytes", bytesJson b64 form []), ("uint", .int n.toNat)]

def TealEntry.toJson (b64 : Base64) (form : BytesForm) (e : TealEntry) : Json :=
  .obj [("key", .str (b64.encode e.key)), ("value", e.value.toJson b64 form)]

/-- The state entries of an account reply. -/
def LocalState.toJson (b64 : Base64) (form : BytesForm) (st : LocalState) : List Json :=
  st.entries.map (TealEntry.toJson b64 form)

/-! ## The flat form -/

/-- The text a key is flattened to. -/
def keyText (b64 : Base64) (key : Bytes) : String := (fromUtf8 key).getD (b64.encode key)

/-- The text a value is flattened to. -/
def TealValue.text : TealValue → String
  | uint n => toString n.toNat
  | bytes b => textOfBytes b

def TealEntry.flat (b64 : Base64) (e : TealEntry) : String × String :=
  (keyText b64 e.key, e.value.text)

theorem asU64_natCast {n : ℕ} (h : n < 2 ^ 64) : (Json.int n).asU64 = some n := by
  show (if n < 2 ^ 64 then some n else none) = some n
  rw [if_pos h]

theorem jsonByte_of_asU64 {n : Json} {u : ℕ} (h : n.asU64 = some u) :
    jsonByte n = some (UInt8.ofNat u) := by
  unfold jsonByte
  rw [h]

theorem jsonByte_toNat (byte : UInt8) : jsonByte (.int byte.toNat) = some byte := by
  have hlt := byte.toNat_lt
  rw [jsonByte_of_asU64 (asU64_natCast (by omega)), UInt8.ofNat_toNat]

theorem filterMap_jsonByte (b : Bytes) :
    (b.map fun byte => Json.int byte.toNat).filterMap jsonByte = b := by
  induction b with
  | nil => rfl
  | cons byte b ih => rw [List.map_cons, List.filterMap_cons_some (jsonByte_toNat byte), ih]

theorem valueBytes_toJson (b64 : Base64) (form : BytesForm) (b : Bytes) :
    valueBytes b64 (TealValue.toJson b64 form (.bytes b)) = some b := by
  rcases form with _ | _
  · show (b64.decode (b64.encode b)).toOption = some b
    rw [b64.decode_encode]
    rfl
  · show some ((b.map fun byte => Json.int byte.toNat).filterMap jsonByte) = some b
    rw [filterMap_jsonByte]

theorem stateValue_toJson (b64 : Base64) (form : BytesForm) (v : TealValue) :
    stateValue b64 (v.toJson b64 form) = v.text := by
  rcases v with n | b
  · have htype : (TealValue.toJson b64 form (.uint n)).get "type" = some (.int 2) := by
      simp [TealValue.toJson, Json.get]
    have huint : (TealValue.toJson b64 form (.uint n)).get "uint" = some (.int n.toNat) := by
      simp [TealValue.toJson, Json.get, List.lookup_cons]
    have htwo : (Json.int 2).asU64 = some 2 := rfl
    rw [stateValue, htype, huint, Option.bind_eq_bind, Option.bind_some, htwo,
      Option.bind_some, asU64_natCast n.toNat_lt]
    rfl
  · have htype : (TealValue.toJson b64 form (.bytes b)).get "type" = some (.int 1) := by
      simp [TealValue.toJson, Json.get]
    have hone : (Json.int 1).asU64 = some 1 := rfl
    rw [stateValue, htype, valueBytes_toJson, Option.bind_eq_bind, Option.bind_some, hone]
    rfl

theorem decodeStateEntry_toJson (b64 : Base64) (form : BytesForm) (e : TealEntry) :
    decodeStateEntry b64 (e.toJson b64 form) = some (e.flat b64) := by
  have hkey : (e.toJson b64 form).get "key" = some (.str (b64.encode e.key)) := rfl
  have hvalue : (e.toJson b64 form).get "value" = some (e.value.toJson b64 form) := rfl
  have hobj : ∃ fields, e.value.toJson b64 form = .obj fields := by
    cases e.value <;> exact ⟨_, rfl⟩
  obtain ⟨fields, hfields⟩ := hobj
  have hstate := stateValue_toJson b64 form e.value
  rw [hfields] at hvalue hstate
  simp [decodeStateEntry, hkey, hvalue, Json.asStr, Json.asObject, b64.decode_encode, hstate,
    TealEntry.flat, keyText]

/-- Decoding a served state gives the flat form of its entries, in order. -/
theorem decodeStateEntries_toJson (b64 : Base64) (form : BytesForm) (st : LocalState) :
    decodeStateEntries b64 (st.toJson b64 form) = st.entries.map (TealEntry.flat b64) := by
  unfold decodeStateEntries LocalState.toJson
  rw [List.filterMap_map]
  have hsome : decodeStateEntry b64 ∘ TealEntry.toJson b64 form
      = fun e => some (e.flat b64) := by
    funext e
    exact decodeStateEntry_toJson b64 form e
  rw [hsome, ← List.filterMap_eq_map]
  rfl

end BlockchainOps.Algo
