import BlockchainOps.Algo.LocalState
import BlockchainOps.Lib.Wire

/-!
# The endpoint record

A node publishes its IPv4 and IPv6 endpoints in local state as the base64 text of a compact
binary record: a byte of flags, then for each stack present its address and port.

The flow label and the scope of an IPv6 socket address are not on the wire; `onWire` is a
record without them. The codec is a bijection between such records and the texts it accepts.
-/

namespace BlockchainOps.Tls

open Algo Wire

structure SocketAddrV4 where
  ip : Field 4
  port : UInt16
deriving DecidableEq, Repr

structure SocketAddrV6 where
  ip : Field 16
  port : UInt16
  flowinfo : UInt32
  scopeId : UInt32
deriving DecidableEq, Repr

inductive SocketAddr
  | v4 (addr : SocketAddrV4)
  | v6 (addr : SocketAddrV6)
deriving DecidableEq, Repr

def flagV4 : UInt8 := 1
def flagV6 : UInt8 := 2

structure EndpointRecord where
  v4 : Option SocketAddrV4
  v6 : Option SocketAddrV6
deriving DecidableEq, Repr

/-- The bytes of an address and its port. -/
def blockBytes {n : ℕ} (ip : Field n) (port : UInt16) : Bytes := ip.1 ++ beBytes 2 port.toNat

/-- Split off an address of `n` bytes and its port. -/
def readBlock (n : ℕ) (rest : Bytes) : Option ((Field n × UInt16) × Bytes) := do
  let (ip, rest) ← readExact n rest
  let (port, rest) ← readExact 2 rest
  pure ((ip, UInt16.ofNat (beValue port.1)), rest)

/-- Split off a block if its flag is set. -/
def readBlockIf {n : ℕ} (present : Bool) (rest : Bytes) :
    Option (Option (Field n × UInt16) × Bytes) :=
  if present then (readBlock n rest).map fun r => (some r.1, r.2) else some (none, rest)

namespace EndpointRecord

/-- A record with at least one endpoint. -/
def new (v4 : Option SocketAddrV4) (v6 : Option SocketAddrV6) : Option EndpointRecord :=
  if v4.isSome || v6.isSome then some ⟨v4, v6⟩ else none

/-- A record from socket addresses; an address of the other family is dropped. -/
def fromSocketAddrs (ipv4 ipv6 : Option SocketAddr) : Option EndpointRecord :=
  let v4 := ipv4.bind fun
    | .v4 v4 => some v4
    | .v6 _ => none
  let v6 := ipv6.bind fun
    | .v6 v6 => some v6
    | .v4 _ => none
  new v4 v6

/-- The flags of the stacks present. -/
def flags (r : EndpointRecord) : UInt8 :=
  (if r.v4.isSome then flagV4 else 0) ||| (if r.v6.isSome then flagV6 else 0)

def toBytes (r : EndpointRecord) : Bytes :=
  r.flags ::
    ((r.v4.elim [] fun v4 => blockBytes v4.ip v4.port)
      ++ r.v6.elim [] fun v6 => blockBytes v6.ip v6.port)

/-- Read the binary form. Unknown flags, a wrong length and an empty record are refused. -/
def fromBytes : Bytes → Option EndpointRecord
  | [] => none
  | flags :: rest =>
    if flags &&& ~~~(flagV4 ||| flagV6) ≠ 0 then none
    else do
      let (v4, rest) ← readBlockIf (flags &&& flagV4 ≠ 0) rest
      let (v6, rest) ← readBlockIf (flags &&& flagV6 ≠ 0) rest
      if rest ≠ [] then none
      else new (v4.map fun b => ⟨b.1, b.2⟩) (v6.map fun b => ⟨b.1, b.2, 0, 0⟩)

def encode (b64 : Base64) (r : EndpointRecord) : String := b64.encode r.toBytes

def decode (b64 : Base64) (value : String) : Option EndpointRecord :=
  (b64.decode value).toOption >>= fromBytes

/-- The record without what is not on the wire. -/
def onWire (r : EndpointRecord) : EndpointRecord :=
  { r with v6 := r.v6.map fun v6 => { v6 with flowinfo := 0, scopeId := 0 } }

/-- The record comes from one of the two constructors. -/
def Built (r : EndpointRecord) : Prop :=
  (∃ v4 v6, new v4 v6 = some r) ∨ ∃ ipv4 ipv6, fromSocketAddrs ipv4 ipv6 = some r

/-! ## The constructors -/

theorem new_eq_some_iff {v4 : Option SocketAddrV4} {v6 : Option SocketAddrV6}
    {r : EndpointRecord} :
    new v4 v6 = some r ↔ r = ⟨v4, v6⟩ ∧ (v4.isSome = true ∨ v6.isSome = true) := by
  unfold new
  split_ifs with h
  · rw [Bool.or_eq_true] at h
    constructor
    · exact fun hr => ⟨(Option.some.inj hr).symm, h⟩
    · exact fun hr => congrArg some hr.1.symm
  · rw [Bool.or_eq_true] at h
    constructor
    · exact fun hr => absurd hr (by simp)
    · exact fun hr => absurd hr.2 h

theorem built_iff {r : EndpointRecord} :
    r.Built ↔ r.v4.isSome = true ∨ r.v6.isSome = true := by
  constructor
  · rintro (⟨v4, v6, h⟩ | ⟨ipv4, ipv6, h⟩)
    · obtain ⟨rfl, hsome⟩ := new_eq_some_iff.mp h
      exact hsome
    · obtain ⟨rfl, hsome⟩ := new_eq_some_iff.mp h
      exact hsome
  · exact fun h => Or.inl ⟨r.v4, r.v6, new_eq_some_iff.mpr ⟨rfl, h⟩⟩

/-! ## Blocks -/

theorem ofNat_beValue_port (port : UInt16) :
    UInt16.ofNat (beValue (beBytes 2 port.toNat)) = port := by
  have hlt : port.toNat < 256 ^ 2 := port.toNat_lt
  rw [beValue_beBytes hlt, UInt16.ofNat_toNat]

theorem readBlock_append {n : ℕ} (ip : Field n) (port : UInt16) (rest : Bytes) :
    readBlock n (blockBytes ip port ++ rest) = some ((ip, port), rest) := by
  have hport := readExact_append (⟨beBytes 2 port.toNat, length_beBytes 2 _⟩ : Field 2) rest
  unfold readBlock blockBytes
  rw [List.append_assoc, readExact_append]
  simp only [Option.bind_eq_bind, Option.bind_some, hport, ofNat_beValue_port]
  rfl

theorem readBlock_sound {n : ℕ} {b rest : Bytes} {ip : Field n} {port : UInt16}
    (h : readBlock n b = some ((ip, port), rest)) : b = blockBytes ip port ++ rest := by
  unfold readBlock at h
  simp only [Option.bind_eq_bind, Option.bind_eq_some_iff] at h
  obtain ⟨⟨ip', b'⟩, hip, ⟨p, rest'⟩, hp, hout⟩ := h
  obtain ⟨hblock, rfl⟩ := Prod.mk.inj (Option.some.inj hout)
  obtain ⟨rfl, hport⟩ := Prod.mk.inj hblock
  have hlt : beValue p.1 < 256 ^ 2 := by
    have hbound := beValue_lt p.1
    rw [p.2] at hbound
    exact hbound
  have hbytes : beBytes 2 port.toNat = p.1 := by
    have hnat : port.toNat = beValue p.1 := by
      rw [← hport]
      exact Nat.mod_eq_of_lt hlt
    rw [hnat]
    have hback := beBytes_beValue p.1
    rw [p.2] at hback
    exact hback
  have hrest : b' = p.1 ++ rest' := readExact_sound hp
  rw [readExact_sound hip, hrest, blockBytes, hbytes, List.append_assoc]

/-- The bytes of a block that may be absent. -/
def blockBytesIf {n : ℕ} (block : Option (Field n × UInt16)) : Bytes :=
  block.elim [] fun b => blockBytes b.1 b.2

theorem readBlockIf_append {n : ℕ} {present : Bool} (block : Option (Field n × UInt16))
    (rest : Bytes) (h : present = block.isSome) :
    readBlockIf present (blockBytesIf block ++ rest) = some (block, rest) := by
  unfold readBlockIf blockBytesIf
  rcases block with _ | ⟨ip, port⟩
  · rw [h]
    rfl
  · have hpresent : present = true := h
    rw [if_pos hpresent]
    show (readBlock n (blockBytes ip port ++ rest)).map _ = _
    rw [readBlock_append]
    rfl

theorem readBlockIf_sound {n : ℕ} {present : Bool} {b rest : Bytes}
    {block : Option (Field n × UInt16)} (h : readBlockIf present b = some (block, rest)) :
    present = block.isSome ∧ b = blockBytesIf block ++ rest := by
  unfold readBlockIf at h
  rcases present with _ | _
  · obtain ⟨rfl, rfl⟩ := Prod.mk.inj (Option.some.inj h)
    exact ⟨rfl, rfl⟩
  · obtain ⟨⟨⟨ip, port⟩, rest'⟩, hread, hout⟩ := Option.map_eq_some_iff.mp h
    obtain ⟨rfl, rfl⟩ := Prod.mk.inj hout
    exact ⟨rfl, readBlock_sound hread⟩

/-! ## Flags -/

/-- A byte without unknown flags is the flags it has set. -/
theorem flags_eq_of_known {f : UInt8} (h : f &&& ~~~(flagV4 ||| flagV6) = 0) :
    (if f &&& flagV4 ≠ 0 then flagV4 else 0) ||| (if f &&& flagV6 ≠ 0 then flagV6 else 0) = f := by
  have hall : ∀ i : Fin 256, UInt8.ofNat i &&& ~~~(flagV4 ||| flagV6) = 0 →
      (if UInt8.ofNat i &&& flagV4 ≠ 0 then flagV4 else 0)
        ||| (if UInt8.ofNat i &&& flagV6 ≠ 0 then flagV6 else 0) = UInt8.ofNat i := by
    decide +kernel
  have hf := hall ⟨f.toNat, f.toNat_lt⟩
  rw [UInt8.ofNat_toNat] at hf
  exact hf h

/-- The flags of a record are known and say which stacks are present. -/
theorem flags_spec (r : EndpointRecord) :
    r.flags &&& ~~~(flagV4 ||| flagV6) = 0 ∧ decide (r.flags &&& flagV4 ≠ 0) = r.v4.isSome ∧
      decide (r.flags &&& flagV6 ≠ 0) = r.v6.isSome := by
  unfold flags
  rcases r.v4.isSome with _ | _ <;> rcases r.v6.isSome with _ | _ <;> decide

/-! ## The binary form -/

/-- The blocks of a record. -/
def block4 (r : EndpointRecord) : Option (Field 4 × UInt16) := r.v4.map fun v4 => (v4.ip, v4.port)
def block6 (r : EndpointRecord) : Option (Field 16 × UInt16) := r.v6.map fun v6 => (v6.ip, v6.port)

theorem toBytes_eq (r : EndpointRecord) :
    r.toBytes = r.flags :: (blockBytesIf r.block4 ++ blockBytesIf r.block6) := by
  obtain ⟨v4, v6⟩ := r
  cases v4 <;> cases v6 <;> rfl

/-- A record's binary form is read back as what is on the wire. -/
theorem fromBytes_toBytes {r : EndpointRecord} (h : r.Built) :
    fromBytes r.toBytes = some r.onWire := by
  obtain ⟨hknown, h4, h6⟩ := r.flags_spec
  have hread4 := readBlockIf_append r.block4 (blockBytesIf r.block6)
    (h4.trans (by rw [block4, Option.isSome_map]))
  have hread6 := readBlockIf_append r.block6 [] (h6.trans (by rw [block6, Option.isSome_map]))
  rw [List.append_nil] at hread6
  have hnew : new (r.block4.map fun b => ⟨b.1, b.2⟩) (r.block6.map fun b => ⟨b.1, b.2, 0, 0⟩)
      = some r.onWire := by
    rw [new_eq_some_iff]
    obtain ⟨v4, v6⟩ := r
    refine ⟨?_, ?_⟩
    · cases v4 <;> cases v6 <;> rfl
    · simpa [block4, block6] using built_iff.mp h
  rw [toBytes_eq, fromBytes, if_neg (fun hne => hne hknown)]
  simp only [Option.bind_eq_bind, hread4, hread6, Option.bind_some, ne_eq, not_true_eq_false,
    if_false]
  exact hnew

/-- What is read as a record is the binary form of that record. -/
theorem toBytes_of_fromBytes {b : Bytes} {r : EndpointRecord} (h : fromBytes b = some r) :
    r.toBytes = b ∧ r.Built ∧ r.onWire = r := by
  rcases b with _ | ⟨f, rest⟩
  · exact absurd h (by simp [fromBytes])
  · unfold fromBytes at h
    dsimp only at h
    split_ifs at h with hknown
    rw [ne_eq, not_not] at hknown
    simp only [Option.bind_eq_bind, Option.bind_eq_some_iff] at h
    obtain ⟨⟨b4, rest4⟩, hread4, ⟨b6, rest6⟩, hread6, h⟩ := h
    split_ifs at h with hrest
    rw [ne_eq, not_not] at hrest
    obtain ⟨hp4, hb4⟩ := readBlockIf_sound hread4
    obtain ⟨hp6, hb6⟩ := readBlockIf_sound hread6
    obtain ⟨rfl, hsome⟩ := new_eq_some_iff.mp h
    dsimp only at hrest hb6
    rw [hrest, List.append_nil] at hb6
    have hflags : (EndpointRecord.mk (b4.map fun b => ⟨b.1, b.2⟩)
        (b6.map fun b => ⟨b.1, b.2, 0, 0⟩)).flags = f := by
      unfold flags
      rw [Option.isSome_map, Option.isSome_map, ← hp4, ← hp6]
      simp only [decide_eq_true_eq]
      exact flags_eq_of_known hknown
    refine ⟨?_, built_iff.mpr hsome, ?_⟩
    · rw [toBytes_eq, hflags, hb4, hb6]
      cases b4 <;> cases b6 <;> rfl
    · cases b6 <;> rfl

/-! ## The text form -/

theorem decode_encode (b64 : Base64) {r : EndpointRecord} (h : r.Built) :
    decode b64 (r.encode b64) = some r.onWire := by
  unfold decode encode
  rw [b64.decode_encode]
  exact fromBytes_toBytes h

theorem encode_of_decode {b64 : Base64} {s : String} {r : EndpointRecord}
    (h : decode b64 s = some r) : r.encode b64 = s := by
  unfold decode at h
  obtain ⟨b, hb, hr⟩ := Option.bind_eq_some_iff.mp h
  have hok : b64.decode s = .ok b := by
    rcases hd : b64.decode s with e | b'
    · rw [hd] at hb
      exact absurd hb (by simp [Except.toOption])
    · rw [hd] at hb
      exact congrArg Except.ok (Option.some.inj hb)
  rw [encode, (toBytes_of_fromBytes hr).1]
  exact b64.encode_of_decode hok

theorem fromBytes_isSome_iff {b : Bytes} :
    (∃ r, fromBytes b = some r) ↔ ∃ r : EndpointRecord, r.Built ∧ r.toBytes = b := by
  constructor
  · rintro ⟨r, h⟩
    obtain ⟨hbytes, hbuilt, -⟩ := toBytes_of_fromBytes h
    exact ⟨r, hbuilt, hbytes⟩
  · rintro ⟨r, hbuilt, rfl⟩
    exact ⟨r.onWire, fromBytes_toBytes hbuilt⟩

theorem onWire_eq_self_iff {r : EndpointRecord} :
    r.onWire = r ↔ ∀ v6, r.v6 = some v6 → v6.flowinfo = 0 ∧ v6.scopeId = 0 := by
  obtain ⟨v4, v6⟩ := r
  rcases v6 with _ | ⟨ip, port, flowinfo, scopeId⟩
  · simp [onWire]
  · simp [onWire, eq_comm]

/-- A text published as a byte string is read back from the flat form of the state. -/
theorem flat_of_published {b64 : Base64} (form : BytesForm) {st : LocalState} {i : ℕ}
    {e : TealEntry} {text : String} (he : st.entries[i]? = some e)
    (hvalue : e.value = .bytes (utf8 text)) :
    (decodeStateEntries b64 (st.toJson b64 form))[i]? = some (keyText b64 e.key, text) := by
  have htext : e.value.text = text := by
    rw [hvalue]
    show textOfBytes (utf8 text) = text
    rw [textOfBytes, fromUtf8_utf8]
  rw [decodeStateEntries_toJson, List.getElem?_map, he]
  show some (keyText b64 e.key, e.value.text) = _
  rw [htext]

/-- The codec is a bijection between the records as they are on the wire and the texts it accepts,
and it survives a passage through local state. -/
theorem codec_bijective (b64 : Base64) :
    (∀ r : EndpointRecord, r.Built → decode b64 (r.encode b64) = some r.onWire) ∧
    (∀ r : EndpointRecord, r.onWire = r ↔
      ∀ v6, r.v6 = some v6 → v6.flowinfo = 0 ∧ v6.scopeId = 0) ∧
    (∀ (s : String) (r : EndpointRecord), decode b64 s = some r → r.encode b64 = s) ∧
    (∀ b : Bytes, (∃ r, fromBytes b = some r) ↔ ∃ r : EndpointRecord, r.Built ∧ r.toBytes = b) ∧
    ∀ r : EndpointRecord, r.Built → ∀ (form : BytesForm) (st : LocalState) (i : ℕ) (e : TealEntry),
      st.entries[i]? = some e → e.value = .bytes (utf8 (r.encode b64)) →
      ∃ value, (decodeStateEntries b64 (st.toJson b64 form))[i]? = some (keyText b64 e.key, value) ∧
        decode b64 value = some r.onWire := by
  refine ⟨fun _ h => decode_encode b64 h, fun _ => onWire_eq_self_iff,
    fun _ _ h => encode_of_decode h, fun _ => fromBytes_isSome_iff, ?_⟩
  intro r hbuilt form st i e he hvalue
  exact ⟨r.encode b64, flat_of_published form he hvalue, decode_encode b64 hbuilt⟩

/-- A record with a link-local address of the interface 3. -/
def linkLocal : EndpointRecord :=
  ⟨none, some ⟨⟨[0xfe, 0x80, 0, 0, 0, 0, 0, 0, 0, 0, 0, 0, 0, 0, 0, 1], rfl⟩, 4000, 0, 3⟩⟩

/-- The scope of an address does not survive the codec. -/
theorem decode_loses_scope : linkLocal.Built ∧
    decode Base64.standard (linkLocal.encode Base64.standard) ≠ some linkLocal := by
  have hbuilt : linkLocal.Built := built_iff.mpr (Or.inr rfl)
  refine ⟨hbuilt, ?_⟩
  rw [decode_encode _ hbuilt]
  intro h
  have hself := onWire_eq_self_iff.mp (Option.some.inj h) _ rfl
  exact absurd hself.2 (by decide)

end EndpointRecord

end BlockchainOps.Tls
