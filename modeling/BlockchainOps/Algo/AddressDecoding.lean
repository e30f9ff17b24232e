import BlockchainOps.Algo.Handle
import BlockchainOps.Lib.Base32
import BlockchainOps.Lib.Fallible

/-!
# Reading addresses

An address is the base32 form of a key and its checksum. Reading one takes the first 32 of its
bytes and asks nothing of the others: every base32 text of 32 bytes or more is read, and it is
the address of the key it yields exactly when the other bytes are the key's checksum
(`byteKeyToAddress_encode_iff`).
-/

namespace BlockchainOps.Algo

open Wire

/-- The bytes that follow a key in its address. -/
def checksumOf (p : AddressPrims) (key : Bytes) : Bytes :=
  (p.sha512_256 key).drop ((p.sha512_256 key).length - 4)

section Reading

variable {p : KeyPrims} {base32 : Base32}

/-- A key is read, whatever follows it. -/
theorem addressToByteKey_encode (hdecode : p.base32NopadDecode = base32.decode) (key : Field 32)
    (rest : Bytes) : addressToByteKey p (base32.encode (key.1 ++ rest)) = .ok key := by
  unfold addressToByteKey
  rw [hdecode, base32.decode_encode]
  simp only [Fallible.mapError_ok, bind, Except.bind, readExact_append]

/-- The address of a key yields the key. -/
theorem addressToByteKey_byteKeyToAddress (hencode : p.base32NopadEncode = base32.encode)
    (hdecode : p.base32NopadDecode = base32.decode) (key : Field 32) {address : String}
    (h : byteKeyToAddress p.toAddressPrims key.1 = .ok address) :
    addressToByteKey p address = .ok key := by
  unfold byteKeyToAddress at h
  rw [← Except.ok.inj h, hencode]
  exact addressToByteKey_encode hdecode key _

/-- A text is read exactly when it is the base32 form of the key and some bytes after it. -/
theorem addressToByteKey_eq_ok_iff (hdecode : p.base32NopadDecode = base32.decode)
    {address : String} {key : Field 32} :
    addressToByteKey p address = .ok key ↔ ∃ rest, address = base32.encode (key.1 ++ rest) := by
  constructor
  · intro h
    unfold addressToByteKey at h
    rw [hdecode] at h
    obtain ⟨decoded, hdecoded, hread⟩ := Fallible.bind_eq_ok.mp h
    have hbytes := base32.encode_of_decode (Fallible.mapError_eq_ok.mp hdecoded)
    rcases hfield : readExact 32 decoded with _ | ⟨pk, rest⟩
    · rw [hfield] at hread
      exact absurd hread (by simp)
    · rw [hfield] at hread
      have hpk : pk = key := Except.ok.inj hread
      rw [hpk] at hfield
      rw [readExact_sound hfield] at hbytes
      exact ⟨rest, hbytes.symm⟩
  · intro h
    obtain ⟨rest, hrest⟩ := h
    rw [hrest]
    exact addressToByteKey_encode hdecode key rest

/-- The base32 form of a key and some bytes is the key's address exactly when these bytes are the
key's checksum. -/
theorem byteKeyToAddress_encode_iff (hencode : p.base32NopadEncode = base32.encode)
    (key : Field 32) (rest : Bytes) :
    byteKeyToAddress p.toAddressPrims key.1 = .ok (base32.encode (key.1 ++ rest))
      ↔ rest = checksumOf p.toAddressPrims key.1 := by
  unfold byteKeyToAddress
  rw [hencode]
  constructor
  · intro h
    have hbytes := base32.encode_injective (Except.ok.inj h)
    exact (List.append_cancel_left hbytes).symm
  · intro h
    rw [h]
    rfl

end Reading

/-- Reading an address: the address of every key yields the key; a text is read exactly when it
is the base32 form of 32 bytes and others after them, and yields the 32 bytes, also as the public
key of a handle; and it is the address of the key it yields exactly when the other bytes are the
key's checksum. -/
theorem address_decoding (p : KeyPrims) (base32 : Base32)
    (hencode : p.base32NopadEncode = base32.encode)
    (hdecode : p.base32NopadDecode = base32.decode) :
    (∀ key : Field 32, ∃ address, byteKeyToAddress p.toAddressPrims key.1 = .ok address ∧
      addressToByteKey p address = .ok key) ∧
    (∀ (address : String) (key : Field 32), addressToByteKey p address = .ok key ↔
      ∃ rest, address = base32.encode (key.1 ++ rest)) ∧
    (∀ (ops : AlgoOps) (address : String) (key : Field 32), ops.address = some address →
      (ops.publicKeyBytes p = .ok key ↔ addressToByteKey p address = .ok key)) ∧
    ∀ (key : Field 32) (rest : Bytes),
      byteKeyToAddress p.toAddressPrims key.1 = .ok (base32.encode (key.1 ++ rest))
        ↔ rest = checksumOf p.toAddressPrims key.1 := by
  refine ⟨fun key => ?_, fun address key => addressToByteKey_eq_ok_iff hdecode,
    fun ops address key hops => ?_, byteKeyToAddress_encode_iff hencode⟩
  · obtain ⟨address, haddress⟩ : ∃ a, byteKeyToAddress p.toAddressPrims key.1 = .ok a := ⟨_, rfl⟩
    exact ⟨address, haddress, addressToByteKey_byteKeyToAddress hencode hdecode key haddress⟩
  · unfold AlgoOps.publicKeyBytes
    rw [hops]

/-- The packages, with the standard base32 engine and the digest of 32 zeros. -/
def zeroDigestPrims : KeyPrims where
  sha512_256 := fun _ =>
    [175, 19, 192, 72, 153, 18, 36, 165, 228, 198, 100, 68, 107, 104, 138, 175, 72, 251, 84, 86,
      219, 54, 41, 96, 27, 0, 236, 22, 12, 116, 229, 84]
  base32NopadEncode := Base32.standard.encode
  verifyingKey := fun seed => seed
  sign := fun _ _ => Field.replicate 64 0
  base32NopadDecode := Base32.standard.decode
  mnemonicToKey := fun _ => .error "not a mnemonic"
  base64Decode := fun _ => .error "Invalid byte"

/-- The zero key's address is read back, and so is its base32 form without any checksum. -/
theorem address_decoding_zero :
    addressToByteKey zeroDigestPrims "AAAAAAAAAAAAAAAAAAAAAAAAAAAAAAAAAAAAAAAAAAAAAAAAAAAAY5HFKQ"
      = .ok (Field.replicate 32 0) ∧
    addressToByteKey zeroDigestPrims "AAAAAAAAAAAAAAAAAAAAAAAAAAAAAAAAAAAAAAAAAAAAAAAAAAAA"
      = .ok (Field.replicate 32 0) := by
  obtain ⟨hroundTrip, hread, -, -⟩ := address_decoding zeroDigestPrims Base32.standard rfl rfl
  obtain ⟨address, haddress, hback⟩ := hroundTrip (Field.replicate 32 0)
  have hzero : byteKeyToAddress zeroDigestPrims.toAddressPrims (Field.replicate 32 0).1
      = .ok "AAAAAAAAAAAAAAAAAAAAAAAAAAAAAAAAAAAAAAAAAAAAAAAAAAAAY5HFKQ" := by decide +kernel
  rw [Except.ok.inj (hzero.symm.trans haddress)]
  exact ⟨hback, (hread _ _).mpr ⟨[], by decide +kernel⟩⟩

/-- Base32 texts of the zero key with a wrong checksum, with none and with a byte after it are
read, and none of them is the zero key's address. -/
theorem not_only_addresses_read :
    addressToByteKey zeroDigestPrims "AAAAAAAAAAAAAAAAAAAAAAAAAAAAAAAAAAAAAAAAAAAAAAAAAAAAAAAAAA"
      = .ok (Field.replicate 32 0) ∧
    addressToByteKey zeroDigestPrims "AAAAAAAAAAAAAAAAAAAAAAAAAAAAAAAAAAAAAAAAAAAAAAAAAAAA"
      = .ok (Field.replicate 32 0) ∧
    addressToByteKey zeroDigestPrims
        "AAAAAAAAAAAAAAAAAAAAAAAAAAAAAAAAAAAAAAAAAAAAAAAAAAAAY5HFKQAA"
      = .ok (Field.replicate 32 0) ∧
    byteKeyToAddress zeroDigestPrims.toAddressPrims (Field.replicate 32 0).1
      = .ok "AAAAAAAAAAAAAAAAAAAAAAAAAAAAAAAAAAAAAAAAAAAAAAAAAAAAY5HFKQ" := by
  -- what follows the key in each of the texts
  have hread : ∀ address rest, Base32.standard.encode ((Field.replicate 32 0).1 ++ rest) = address →
      addressToByteKey zeroDigestPrims address = .ok (Field.replicate 32 0) := by
    intro address rest haddress
    rw [← haddress]
    exact addressToByteKey_encode rfl (Field.replicate 32 0) rest
  refine ⟨hread _ [0, 0, 0, 0] ?_, hread _ [] ?_, hread _ [12, 116, 229, 84, 0] ?_, ?_⟩ <;>
    decide +kernel

end BlockchainOps.Algo
