import BlockchainOps.Algo.Error

/-!
# Algorand addresses

An address is the base32 form of a public key and the last four bytes of its SHA-512/256
digest. The digest and the base32 alphabet belong to other packages and are parameters.
-/

namespace BlockchainOps

/-- Byte strings. -/
abbrev Bytes := List UInt8

/-- The UTF-8 bytes of a text. -/
def utf8 (s : String) : Bytes := s.toUTF8.data.toList

theorem utf8_append (s t : String) : utf8 (s ++ t) = utf8 s ++ utf8 t := by
  unfold utf8
  rw [String.toUTF8, String.toByteArray_append]
  simp

namespace Algo

/-- What address derivation takes from other packages. -/
structure AddressPrims where
  sha512_256 : Bytes → Bytes
  base32NopadEncode : Bytes → String

/-- Build an Algorand address from a 32-byte public key. -/
def byteKeyToAddress (p : AddressPrims) (bytePublicKey : Bytes) : Except Error String :=
  let hash := p.sha512_256 bytePublicKey
  let checksum := hash.drop (hash.length - 4)
  .ok (p.base32NopadEncode (bytePublicKey ++ checksum))

end Algo

end BlockchainOps
