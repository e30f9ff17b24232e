import BlockchainOps.Algo.Address
import BlockchainOps.Lib.Wire

/-!
# Passphrases, keys and addresses

A handle holds a passphrase, from which the Ed25519 seed comes, and an address, from which the
public key comes. `AlgoOps.new` derives the address from the passphrase only when it was given
none. Mnemonics, base64, base32 and Ed25519 belong to other packages and are parameters.
-/

namespace BlockchainOps.Algo

open Wire

/-- Ed25519: the public key of a seed, and the signature of a seed's key on a message. -/
structure SigningPrims where
  verifyingKey : Field 32 → Field 32
  sign : Field 32 → Bytes → Field 64

/-- What keys and addresses take from other packages. -/
structure KeyPrims extends AddressPrims, SigningPrims where
  base32NopadDecode : String → Except String Bytes
  /-- `algonaut::crypto::mnemonic::to_key`. -/
  mnemonicToKey : String → Except String Bytes
  base64Decode : String → Except String Bytes

/-- Decode the first 32 bytes of an address to get the public key. -/
def addressToByteKey (p : KeyPrims) (address : String) : Except Error (Field 32) := do
  let decoded ← (p.base32NopadDecode address).mapError fun e =>
    .text s!"Invalid base32 address: {e}"
  match readExact 32 decoded with
  | some (pk, _) => .ok pk
  | none => .error (.text "Decoded address is shorter than 32 bytes")

/-- A seed, which is 32 bytes. -/
def seedOfBytes (what : String) (bytes : Bytes) : Except Error (Field 32) :=
  if h : bytes.length = 32 then .ok ⟨bytes, h⟩
  else .error (.text s!"invalid passphrase: {what} is not 32 bytes")

/-- `str::strip_prefix` of `b64:`. -/
def stripB64Prefix (passphrase : String) : Option String :=
  if "b64:".toList.isPrefixOf passphrase.toList then some (String.ofList (passphrase.toList.drop 4))
  else none

/-- The seed of a 25-word mnemonic, or of a base64 secret after `b64:`. -/
def seedFromPassphrase (p : KeyPrims) (passphrase : String) : Except Error (Field 32) :=
  match passphrase.isEmpty, p.mnemonicToKey passphrase with
  | false, .ok key => seedOfBytes "derived seed" key
  | _, _ =>
    match stripB64Prefix passphrase with
    | some rest => do
      let bytes ← (p.base64Decode rest).mapError fun e =>
        .text s!"invalid passphrase: bad base64 secret ({e})"
      seedOfBytes "secret" bytes
    | none => .error (.text "invalid passphrase: expected a 25-word Algorand mnemonic")

/-- The address of an existing passphrase. -/
def addressFromPassphrase (p : KeyPrims) (passphrase : String) : Except Error String := do
  let sk ← seedFromPassphrase p passphrase
  byteKeyToAddress p.toAddressPrims (p.verifyingKey sk).1

end BlockchainOps.Algo
