import BlockchainOps.Algo.AddressDecoding
import BlockchainOps.Lib.Base64
import BlockchainOps.Sidewinder.TransactionTheorems
import BlockchainOps.Tls.Certificate

/-!
# The transactions a client builds

A client takes the sender's key from its handle's address and the signature from the handle's
passphrase. The node accepts what it builds exactly when the two belong together, which a handle
made with an address of its own need not fulfil.
-/

namespace BlockchainOps.Sidewinder

open Effect Proc MessagePack Wire Fallible

/-- The client's handle; its endpoint and transport play no part in building. -/
structure SidewinderClient where
  algo : Algo.AlgoOps

/-- What a client takes from other packages. -/
structure ClientPrims extends WirePrims where
  keys : Algo.KeyPrims

/-- Build, encode and sign a transaction with the handle's key. -/
def SidewinderClient.buildSignedTransaction {σ : Type} (p : ClientPrims)
    (client : SidewinderClient) (request : TransactionRequest) : Proc σ Error SignedTransaction := do
  let op := "build_signed_transaction"
  let sender ← ofExcept ((client.algo.publicKeyBytes p.keys).mapError fun e =>
    .sidewinder (.invalidTransaction op s!"no signing key available: {e.display}"))
  buildSigned p.toWirePrims op request sender fun bytes =>
    ofExcept ((client.algo.signBytes p.keys bytes).mapError .algo)

/-- The node's check of an envelope: the signature in it verifies over the body in it, under the
key in the body's `snd`. -/
def NodeAccepts (verify : Bytes → Bytes → Bytes → Bool) (envelope : Bytes) : Prop :=
  ∃ entries signature key bodyBytes,
    decode envelope = some (.map
      [(.str (utf8 "txn"), .map entries), (.str (utf8 "sig"), .bin signature)]) ∧
    lookup "snd" entries = some (.bin key) ∧
    encode (.map entries) = some bodyBytes ∧
    verify key bodyBytes signature = true

/-- The node accepts every transaction that a client with this handle builds. -/
def PassesCheck (p : ClientPrims) (verify : Bytes → Bytes → Bytes → Bool) (ops : Algo.AlgoOps) :
    Prop :=
  ∀ request signed,
    (SidewinderClient.buildSignedTransaction p ⟨ops⟩ request ()).1 = .ok signed →
      NodeAccepts verify signed.bytes

/-- A passphrase and an address, where both yield a key, yield the same. -/
def AddressMatches (p : Algo.KeyPrims) (passphrase address : Option String) : Prop :=
  ∀ pass addr seed key, passphrase = some pass → address = some addr →
    Algo.seedFromPassphrase p pass = .ok seed → Algo.addressToByteKey p addr = .ok key →
      key = p.verifyingKey seed

variable {p : ClientPrims} {verify : Bytes → Bytes → Bytes → Bool}

/-- What a client puts in a transaction it built: the key of the address, and the signature of
the passphrase's seed over the body. -/
theorem buildSignedTransaction_ok {ops : Algo.AlgoOps} {request : TransactionRequest}
    {signed : SignedTransaction}
    (h : (SidewinderClient.buildSignedTransaction p ⟨ops⟩ request ()).1 = .ok signed) :
    ∃ key seed bodyBytes, ops.publicKeyBytes p.keys = .ok key ∧
      ops.privateKeyBytes p.keys = .ok seed ∧
      p.serialize (body request key.1).value = .ok bodyBytes ∧
      p.serialize (SignedTransactionWire.value
        ⟨body request key.1, (p.keys.sign seed bodyBytes).1⟩) = .ok signed.bytes := by
  have hrun : SidewinderClient.buildSignedTransaction p ⟨ops⟩ request () = (.ok signed, ()) :=
    Prod.ext h rfl
  unfold SidewinderClient.buildSignedTransaction at hrun
  simp only [bind_ok_iff, ofExcept_ok_iff] at hrun
  obtain ⟨key, _, ⟨hkey, -⟩, hbuilt⟩ := hrun
  obtain ⟨-, bodyBytes, signature, hbody, hsign, -, henvelope⟩ := buildSigned_ok hbuilt
  have hsigned := mapError_eq_ok.mp (ofExcept_ok_iff.mp hsign).1
  obtain ⟨seed, hseed, hsame⟩ := bind_eq_ok.mp hsigned
  rw [← Except.ok.inj hsame] at henvelope
  exact ⟨key, seed, bodyBytes, mapError_eq_ok.mp hkey, hseed, hbody, henvelope⟩

/-- The node accepts an envelope exactly when the signature in it is one of the sender's. -/
theorem nodeAccepts_iff {w : TransactionBodyWire} {signature bodyBytes envelope : Bytes}
    (hbody : encode w.value = some bodyBytes)
    (henvelope : encode (SignedTransactionWire.value ⟨w, signature⟩) = some envelope) :
    NodeAccepts verify envelope ↔ verify w.snd bodyBytes signature = true := by
  have hdecode : decode envelope = some (.map
      [(.str (utf8 "txn"), .map (bodyEntries w)), (.str (utf8 "sig"), .bin signature)]) := by
    rw [decode_encode henvelope]
    unfold SignedTransactionWire.value
    rw [value_eq]
    rfl
  have hsender : lookup "snd" (bodyEntries w) = some (.bin w.snd) := by
    simp [bodyEntries]
  rw [value_eq] at hbody
  constructor
  · rintro ⟨entries, sig, key, bytes, hdec, hsnd, hbytes, hverify⟩
    have hsame := Option.some.inj (hdecode.symm.trans hdec)
    simp only [Value.map.injEq, List.cons.injEq, Prod.mk.injEq, true_and, and_true,
      Value.bin.injEq] at hsame
    obtain ⟨rfl, rfl⟩ := hsame
    rw [Value.bin.inj (Option.some.inj (hsender.symm.trans hsnd)),
      Option.some.inj (hbody.symm.trans hbytes)]
    exact hverify
  · intro hverify
    exact ⟨_, _, _, _, hdecode, hsender, hbody, hverify⟩

/-! ## The two keys of a handle -/

/-- The two keys of a handle agree where its arguments match. -/
theorem keys_agree {p : Algo.KeyPrims} {base32 : Base32}
    (hencode : p.base32NopadEncode = base32.encode) (hdecode : p.base32NopadDecode = base32.decode)
    {passphrase address : Option String} {config : Option Algo.AlgoChainConfig}
    (h : AddressMatches p passphrase address) {key seed : Field 32}
    (hkey : (Algo.AlgoOps.newForAlgorand p passphrase address config).publicKeyBytes p = .ok key)
    (hseed : (Algo.AlgoOps.newForAlgorand p passphrase address config).privateKeyBytes p
      = .ok seed) : key = p.verifyingKey seed := by
  rcases passphrase with _ | pass
  · exact absurd hseed (by simp [Algo.AlgoOps.newForAlgorand, Algo.AlgoOps.new,
      Algo.AlgoOps.privateKeyBytes])
  · have hpass : Algo.seedFromPassphrase p pass = .ok seed := hseed
    rcases address with _ | addr
    · -- the address is derived from the passphrase
      have hderived : Algo.addressFromPassphrase p pass
          = Algo.byteKeyToAddress p.toAddressPrims (p.verifyingKey seed).1 := by
        unfold Algo.addressFromPassphrase
        rw [hpass]
        rfl
      obtain ⟨derived, haddress⟩ : ∃ a, Algo.byteKeyToAddress p.toAddressPrims
          (p.verifyingKey seed).1 = .ok a := ⟨_, rfl⟩
      have hback := Algo.addressToByteKey_byteKeyToAddress hencode hdecode _ haddress
      simp only [Algo.AlgoOps.newForAlgorand, Algo.AlgoOps.new, Algo.AlgoOps.publicKeyBytes,
        hderived, haddress, Except.toOption] at hkey
      exact Except.ok.inj (hkey.symm.trans hback)
    · exact h pass addr seed key rfl rfl hpass hkey

/-! ## A request that every key pair builds -/

/-- The sample request is encoded under every sender, and its envelope under every signature. -/
theorem slotSet_encodes (key : Field 32) (signature : Field 64) :
    (∃ b, encode (body slotSet key.1).value = some b) ∧
    ∃ b, encode (SignedTransactionWire.value ⟨body slotSet key.1, signature.1⟩) = some b := by
  have hbody : (encode (body slotSet key.1).value).isSome = true := by
    rw [value_eq, isSome_encode_map]
    simp only [bodyEntries, body, slotSet, field, optionalField, Option.map, List.cons_append,
      List.nil_append, List.length_cons, List.length_nil, isSome_encodeEntries_cons,
      isSome_encode_bin, key.2]
    decide +kernel
  have henvelope : (encode (SignedTransactionWire.value
      ⟨body slotSet key.1, signature.1⟩)).isSome = true := by
    unfold SignedTransactionWire.value
    simp only [isSome_encode_map, field, List.length_cons, List.length_nil,
      isSome_encodeEntries_cons, hbody, isSome_encode_bin, signature.2]
    decide +kernel
  exact ⟨Option.isSome_iff_exists.mp hbody, Option.isSome_iff_exists.mp henvelope⟩

/-- The sample request is admissible. -/
theorem slotSet_admissible : Admissible slotSet where
  window := by decide
  length_instance := by decide
  length_group _ h := absurd h (by simp [slotSet])

/-- A handle with both keys builds the sample request. -/
theorem slotSet_builds (hserialize : ∀ v b, encode v = some b → p.serialize v = .ok b)
    {ops : Algo.AlgoOps} {key seed : Field 32} (hkey : ops.publicKeyBytes p.keys = .ok key)
    (hseed : ops.privateKeyBytes p.keys = .ok seed) :
    ∃ signed, (SidewinderClient.buildSignedTransaction p ⟨ops⟩ slotSet ()).1 = .ok signed := by
  obtain ⟨⟨bodyBytes, hbody⟩, -⟩ := slotSet_encodes key ⟨List.replicate 64 0, rfl⟩
  obtain ⟨-, bytes, henvelope⟩ := slotSet_encodes key (p.keys.sign seed bodyBytes)
  have hsign : ops.signBytes p.keys bodyBytes = .ok (p.keys.sign seed bodyBytes) := by
    unfold Algo.AlgoOps.signBytes
    rw [hseed]
    rfl
  have hof : ∀ {α : Type} (a : α), (ofExcept (.ok a) : Proc Unit Error α) () = (.ok a, ()) :=
    fun _ => rfl
  refine ⟨⟨contentAddress p.toWirePrims bodyBytes, bytes⟩, ?_⟩
  unfold SidewinderClient.buildSignedTransaction
  rw [hkey]
  dsimp only [Fallible.mapError_ok]
  rw [bind_of_ok (hof key)]
  unfold buildSigned toCanonical
  rw [bodyOf_ok_iff.mpr ⟨slotSet_admissible, rfl⟩, bind_of_ok (hof _),
    hserialize _ _ hbody]
  dsimp only [Fallible.mapError_ok]
  rw [bind_of_ok (hof bodyBytes), hsign]
  dsimp only [Fallible.mapError_ok]
  rw [bind_of_ok (hof _), hserialize _ _ henvelope]
  rfl

/-- The node accepts everything that a handle builds exactly when the handle was made without an
address of its own, or with one that matches its passphrase. -/
theorem passesCheck_iff {base32 : Base32} (hencode : p.keys.base32NopadEncode = base32.encode)
    (hdecode : p.keys.base32NopadDecode = base32.decode)
    (hserialize : ∀ v b, p.serialize v = .ok b ↔ encode v = some b)
    (hverify : ∀ seed key message, verify key message (p.keys.sign seed message).1 = true ↔
      key = (p.keys.verifyingKey seed).1)
    (passphrase address : Option String) (config : Option Algo.AlgoChainConfig) :
    PassesCheck p verify (Algo.AlgoOps.newForAlgorand p.keys passphrase address config) ↔
      AddressMatches p.keys passphrase address := by
  constructor
  · intro hpasses pass addr seed key hpass haddr hseed hkey
    rw [hpass, haddr] at hpasses
    -- the sample request is built, so the node's check compares the two keys
    have hpublic : (Algo.AlgoOps.newForAlgorand p.keys (some pass) (some addr)
        config).publicKeyBytes p.keys = .ok key := hkey
    obtain ⟨signed, hsigned⟩ := slotSet_builds (fun v b => (hserialize v b).mpr) hpublic hseed
    have haccepts := hpasses slotSet signed hsigned
    obtain ⟨key', seed', bodyBytes, hkey', hseed', hbody, henvelope⟩ :=
      buildSignedTransaction_ok hsigned
    have hkeys : key' = key := Except.ok.inj (hkey'.symm.trans hkey)
    have hseeds : seed' = seed := Except.ok.inj (hseed'.symm.trans hseed)
    rw [hkeys, hseeds] at henvelope
    rw [hkeys] at hbody
    rw [nodeAccepts_iff ((hserialize _ _).mp hbody) ((hserialize _ _).mp henvelope)] at haccepts
    exact Subtype.ext ((hverify seed key.1 bodyBytes).mp haccepts)
  · intro hmatches request signed hsigned
    obtain ⟨key, seed, bodyBytes, hkey, hseed, hbody, henvelope⟩ :=
      buildSignedTransaction_ok hsigned
    have hagree := keys_agree hencode hdecode hmatches hkey hseed
    rw [nodeAccepts_iff ((hserialize _ _).mp hbody) ((hserialize _ _).mp henvelope)]
    refine (hverify seed _ bodyBytes).mpr ?_
    rw [← hagree]
    rfl

/-! ## One key pair and two addresses -/

namespace OneSeed

open Tls.OneIdentity

/-- The seed's signatures on the sample request, under its own key and under the zero key. -/
def signatures (message : Bytes) : Option (Field 64) :=
  if some message = encode (body slotSet publicKey.1).value then
    some ⟨Tls.ofBase64 ("gKeq5gumuW2MNkxPHzbsjtnBOwGCu8Ts5lpSoaeuvb8UvNWQoQWvhe7tiEb8j0IcWYxCm0qa"
      ++ "4Ws1h8nonl3nCg=="), by decide +kernel⟩
  else if some message = encode (body slotSet otherKey.1).value then
    some ⟨Tls.ofBase64 ("Ia+5pWZuBwYCcMas2+A+7Uzfh/2wp0YqC5x65TLR2haj77pGJnhhznIymFU2rWL2rD9NFUxA"
      ++ "QGo+PnxR1RqQBg=="), by decide +kernel⟩
  else none

/-- The packages on this seed. -/
def prims : ClientPrims where
  serialize v :=
    match encode v with
    | some b => .ok b
    | none => .error "too long"
  sha512_256 := Tls.OneIdentity.prims.sha512_256
  keys :=
    { sha512_256 := Tls.OneIdentity.prims.sha512_256
      base32NopadEncode := Base32.standard.encode
      base32NopadDecode := Base32.standard.decode
      verifyingKey := fun s => if s = seed then publicKey else otherKey
      sign := fun s message =>
        if s = seed then
          (signatures message).getD ⟨publicKey.1 ++ otherKey.1, by
            rw [List.length_append, publicKey.2, otherKey.2]⟩
        else otherSignature
      mnemonicToKey := fun _ => .error "invalid mnemonic"
      base64Decode := Base64.standard.decode }

def verifyStrict (key message signature : Bytes) : Bool :=
  if (signatures message).map (·.1) = some signature then decide (key = publicKey.1)
  else decide (key = signature.take 32)

theorem serialize_ok_iff (v : Value) (b : Bytes) :
    prims.serialize v = .ok b ↔ encode v = some b := by
  simp only [prims]
  rcases encode v with _ | bytes <;> simp

theorem verify_sign (s : Field 32) (key message : Bytes) :
    verifyStrict key message (prims.keys.sign s message).1 = true ↔
      key = (prims.keys.verifyingKey s).1 := by
  have htake : (publicKey.1 ++ otherKey.1).take 32 = publicKey.1 :=
    List.take_left' publicKey.2
  have hother : ∀ message sig, signatures message = some sig → sig.1 ≠ otherSignature.1 := by
    intro message sig h
    unfold signatures at h
    split_ifs at h
    · rw [← Option.some.inj h]
      decide +kernel
    · rw [← Option.some.inj h]
      decide +kernel
  by_cases hs : s = seed
  · simp only [prims, verifyStrict]
    rcases Option.eq_none_or_eq_some (signatures message) with hsig | ⟨sig, hsig⟩
    · simp [hs, hsig, htake]
    · simp [hs, hsig]
  · have hkey : prims.keys.verifyingKey s = otherKey := by simp only [prims, if_neg hs]
    have hsign : prims.keys.sign s message = otherSignature := by simp only [prims, if_neg hs]
    have hunsigned : (signatures message).map (·.1) ≠ some otherSignature.1 := by
      intro h
      obtain ⟨sig, hsig, hsame⟩ := Option.map_eq_some_iff.mp h
      exact hother message sig hsig hsame
    rw [hkey, hsign]
    unfold verifyStrict
    rw [if_neg hunsigned, decide_eq_true_eq]
    rfl

/-- What the handle made from the passphrase alone builds, the node accepts. -/
theorem passesCheck_derived : PassesCheck prims verifyStrict
    (.newForAlgorand prims.keys (some "b64:AAECAwQFBgcICQoLDA0ODxAREhMUFRYXGBkaGxwdHh8=") none
      none) := by
  have hencode : prims.keys.base32NopadEncode = Base32.standard.encode := rfl
  have hmatches : AddressMatches prims.keys
      (some "b64:AAECAwQFBgcICQoLDA0ODxAREhMUFRYXGBkaGxwdHh8=") none :=
    fun _ _ _ _ _ haddr => absurd haddr (by simp)
  exact (passesCheck_iff hencode rfl serialize_ok_iff verify_sign _ _ none).mpr hmatches

/-- The node refuses what the handle with the passphrase and the zero address builds. -/
theorem not_passesCheck_zero : ¬ PassesCheck prims verifyStrict
    (.newForAlgorand prims.keys (some "b64:AAECAwQFBgcICQoLDA0ODxAREhMUFRYXGBkaGxwdHh8=")
      (some "AAAAAAAAAAAAAAAAAAAAAAAAAAAAAAAAAAAAAAAAAAAAAAAAAAAAY5HFKQ") none) := by
  intro h
  have hkey : (Algo.AlgoOps.newForAlgorand prims.keys
      (some "b64:AAECAwQFBgcICQoLDA0ODxAREhMUFRYXGBkaGxwdHh8=")
      (some "AAAAAAAAAAAAAAAAAAAAAAAAAAAAAAAAAAAAAAAAAAAAAAAAAAAAY5HFKQ") none).publicKeyBytes
        prims.keys = .ok otherKey := by
    have hread := Algo.addressToByteKey_encode (p := prims.keys) rfl otherKey [12, 116, 229, 84]
    have htext : Base32.standard.encode (otherKey.1 ++ [12, 116, 229, 84])
        = "AAAAAAAAAAAAAAAAAAAAAAAAAAAAAAAAAAAAAAAAAAAAAAAAAAAAY5HFKQ" := by
      decide +kernel
    rw [htext] at hread
    exact hread
  have hseed : (Algo.AlgoOps.newForAlgorand prims.keys
      (some "b64:AAECAwQFBgcICQoLDA0ODxAREhMUFRYXGBkaGxwdHh8=")
      (some "AAAAAAAAAAAAAAAAAAAAAAAAAAAAAAAAAAAAAAAAAAAAAAAAAAAAY5HFKQ") none).privateKeyBytes
        prims.keys = .ok seed := by
    decide +kernel
  obtain ⟨signed, hsigned⟩ := slotSet_builds (fun v b => (serialize_ok_iff v b).mpr) hkey hseed
  obtain ⟨key, s, bodyBytes, hkey', hseed', hbody, henvelope⟩ := buildSignedTransaction_ok hsigned
  rw [← Except.ok.inj (hkey.symm.trans hkey')] at hbody henvelope
  rw [← Except.ok.inj (hseed.symm.trans hseed')] at henvelope
  have haccepts := (nodeAccepts_iff ((serialize_ok_iff _ _).mp hbody)
    ((serialize_ok_iff _ _).mp henvelope)).mp (h slotSet signed hsigned)
  have hsame := (verify_sign seed _ bodyBytes).mp haccepts
  exact absurd hsame (by decide +kernel)

end OneSeed

end BlockchainOps.Sidewinder
