import BlockchainOps.Algo.GroupSubmission
import BlockchainOps.Lib.MessagePack

/-!
# The fee of a call

The fee of a call is a price for each byte of the signed transaction, and at least the least fee.
The bytes are counted on a transaction without a fee; the one that is returned has the fee in it
as well, which takes bytes of its own. The fee covers what is returned exactly when it is the
least fee, and this pays for its own bytes too (`call_fee_covers_iff`).
-/

namespace BlockchainOps.Algo

open MessagePack

/-! ## Prices -/

/-- A fee for a size that is charged for its own bytes as well: it is enough exactly when the least
fee is. -/
theorem price_covers_iff {feeLength : ℕ → ℕ} (hpos : ∀ fee, fee ≠ 0 → 0 < feeLength fee)
    (price size least : ℕ) :
    price * (size + feeLength (max (price * size) least)) ≤ max (price * size) least
      ↔ price * (size + feeLength least) ≤ least := by
  by_cases hleast : price * size ≤ least
  · rw [max_eq_right hleast]
  · rw [max_eq_left (by omega)]
    have hprice : price ≠ 0 := by
      intro h
      rw [h, Nat.zero_mul] at hleast
      omega
    have hown : 0 < price * feeLength (price * size) :=
      Nat.mul_pos (by omega) (hpos _ (by omega))
    rw [Nat.mul_add, Nat.mul_add]
    constructor
    · intro h
      omega
    · intro h
      omega

/-! ## The encoding of the fee -/

/-- The bytes that the fee takes in an encoded transaction, its key with it: none if it is zero. -/
def feeLength (fee : ℕ) : ℕ :=
  if fee = 0 then 0
  else ((encode (.str (utf8 "fee"))).getD []).length + ((encode (.uint fee)).getD []).length

theorem feeLength_pos {fee : ℕ} (h : fee ≠ 0) : 0 < feeLength fee := by
  have hkey : ((encode (.str (utf8 "fee"))).getD []).length = 4 := by decide +kernel
  unfold feeLength
  rw [if_neg h, hkey]
  omega

/-- The documented behaviour of the library on fees and sizes: the builder sets the fee it is
given, and the estimated size is that of the encoded transaction and a constant, where the encoded
transaction has the bytes of the fee and others that do not depend on it. -/
structure Algonaut.Canonical (library : Algonaut)
    (bodyLength : Address → TransactionKind → SuggestedParams → ℕ → ℕ) (overhead : ℕ) : Prop where
  fee : ∀ b params tx fee, library.build b params = .ok tx → b.fee = some fee → tx.fee = fee
  size : ∀ b params tx, library.build b params = .ok tx →
    library.estimateBasicSigSize tx
      = .ok (bodyLength b.sender b.kind params b.note.length + feeLength tx.fee + overhead)

/-- The fee of a transaction is no less than the least fee, nor than the price of its size. -/
def FeeCovers (library : Algonaut) (params : SuggestedParams) (tx : Transaction) : Prop :=
  params.minFee ≤ tx.fee ∧
    ∃ size, library.estimateBasicSigSize tx = .ok size ∧ params.fee * size ≤ tx.fee

section Calls

variable {library : Algonaut} {bodyLength : Address → TransactionKind → SuggestedParams → ℕ → ℕ}
  {overhead : ℕ}

theorem BuiltCall.feeCovers_iff (hcanonical : library.Canonical bodyLength overhead)
    {sender : Address} {kind : TransactionKind} {params : SuggestedParams} {size : ℕ}
    {tx : Transaction} (h : BuiltCall library sender kind params size tx) :
    FeeCovers library params tx ↔
      params.fee * (bodyLength sender kind params 16 + overhead + feeLength params.minFee)
        ≤ params.minFee := by
  obtain ⟨note, withoutFee, hnote, hmeasured, hestimate⟩ := h.measured
  obtain ⟨note', hnote', hbuilt⟩ := h.built
  have hzero := hcanonical.fee _ _ _ _ hmeasured rfl
  have hfee := hcanonical.fee _ _ _ _ hbuilt rfl
  have hsize : size = bodyLength sender kind params 16 + overhead := by
    have hall := hcanonical.size _ _ _ hmeasured
    rw [hestimate, hzero] at hall
    have hbytes := Except.ok.inj hall
    dsimp only at hbytes
    rw [hnote] at hbytes
    exact hbytes
  have hreturned := hcanonical.size _ _ _ hbuilt
  dsimp only at hreturned
  rw [hnote'] at hreturned
  have hbytes : bodyLength sender kind params 16 + feeLength tx.fee + overhead
      = size + feeLength tx.fee := by omega
  rw [hbytes] at hreturned
  have hprice := price_covers_iff (fun _ hne => feeLength_pos hne) params.fee size
    params.minFee
  rw [← hfee] at hprice
  rw [← hsize, ← hprice]
  constructor
  · intro hcovers
    obtain ⟨-, size', hsize', hpaid⟩ := hcovers
    rw [Except.ok.inj (hreturned.symm.trans hsize')]
    exact hpaid
  · intro hpaid
    exact ⟨by rw [hfee]; exact le_max_right _ _, _, hreturned, hpaid⟩

/-- The fee of a call that is returned covers it exactly when the least fee pays for the call with
the least fee in it. -/
theorem call_fee_covers_iff {c : Session} {s t : World}
    (hcanonical : c.env.algonaut.Canonical bodyLength overhead) {appId : ℕ} {assetId : Option ℕ}
    {foreignAppIds : List ℕ} {extraAccounts : List Address} {method : Option String}
    {args : List AppArg} {tx : Transaction}
    (h : (buildCallAppTxInner appId assetId foreignAppIds extraAccounts method args).run c s
      = (.ok tx, t)) :
    ∃ sender creator params note, c.Suggested params ∧
      (∃ text, c.ops.address = some text ∧ c.env.algonaut.parseAddress text = .ok sender) ∧
      c.env.algonaut.build ⟨sender, callKind c.env.keys appId assetId foreignAppIds
        (extraAccounts ++ [creator]) method args, some tx.fee, note⟩ params = .ok tx ∧
      (FeeCovers c.env.algonaut params tx ↔
        params.fee * (bodyLength sender (callKind c.env.keys appId assetId foreignAppIds
            (extraAccounts ++ [creator]) method args) params 16
          + overhead + feeLength params.minFee) ≤ params.minFee) := by
  obtain ⟨sender, creator, params, size, hsender, hsuggested, hbuilt⟩ :=
    buildCallAppTxInner_built h
  obtain ⟨note, -, hreturned⟩ := hbuilt.built
  have hfee := hcanonical.fee _ _ _ _ hreturned rfl
  rw [← hfee] at hreturned
  exact ⟨sender, creator, params, note, hsuggested, hsender, hreturned,
    hbuilt.feeCovers_iff hcanonical⟩

end Calls

/-! ## A call of 250 bytes -/

namespace LocalNode

/-- The library, with transactions of 250 bytes without their fee. -/
def sizingLibrary : Algonaut :=
  { library with
    estimateBasicSigSize := fun tx => .ok (159 + tx.note.length + feeLength tx.fee + 75) }

theorem sizingLibrary_canonical :
    sizingLibrary.Canonical (fun _ _ _ noteLength => 159 + noteLength) 75 where
  fee := by
    intro b params tx fee h hfee
    cases h
    show b.fee.getD params.minFee = fee
    rw [hfee]
    rfl
  size := by
    intro b params tx h
    cases h
    rfl

/-- So much a byte, and at least 1000. -/
def suggestion (fee : ℕ) : SuggestedParams := ⟨fee, 1000, 9, .replicate 32 0, "dockernet-v1"⟩

/-- A client with an account, of a node that suggests this. -/
def caller (fee : ℕ) : Session :=
  let node := { silent with suggestedParams := fun _ => .done 0 (.ok (suggestion fee)) }
  { signer node with env := { (signer node).env with algonaut := sizingLibrary } }

/-- A world without limits, where the creator of the application 5 is known. -/
def known : World := { unlimited with appCreators := .new [(5, "A")] }

theorem suggested_caller {fee : ℕ} {params : SuggestedParams} (h : (caller fee).Suggested params) :
    params = suggestion fee := by
  obtain ⟨client, moment, after, hclient, hsettled⟩ := h
  cases hclient
  cases hsettled
  rfl

end LocalNode

open LocalNode in
/-- At 3 a byte the least fee covers the call. -/
theorem call_fee_covers_at3 :
    ∃ tx t, (buildCallAppTxInner 5 none [] [] none []).run (caller 3) known = (.ok tx, t) ∧
      FeeCovers sizingLibrary (suggestion 3) tx := by
  obtain ⟨tx, t, hrun⟩ : ∃ tx t, (buildCallAppTxInner 5 none [] [] none []).run (caller 3) known
      = (.ok tx, t) := ⟨_, _, rfl⟩
  obtain ⟨_, _, params, _, hsuggested, -, -, hcovers⟩ :=
    call_fee_covers_iff sizingLibrary_canonical hrun
  rw [suggested_caller hsuggested] at hcovers
  have hlength : feeLength 1000 = 7 := by decide +kernel
  refine ⟨tx, t, hrun, hcovers.mpr ?_⟩
  show 3 * (159 + 16 + 75 + feeLength 1000) ≤ 1000
  rw [hlength]
  omega

open LocalNode in
/-- At 10 a byte a call of 250 bytes is charged 2500; with this fee it has 257. -/
theorem call_fee_missed_at10 :
    ∃ tx t, (buildCallAppTxInner 5 none [] [] none []).run (caller 10) known = (.ok tx, t) ∧
      (caller 10).Suggested (suggestion 10) ∧ ¬ FeeCovers sizingLibrary (suggestion 10) tx := by
  refine ⟨_, _, rfl, ⟨_, 0, 0, rfl, rfl⟩, ?_⟩
  intro h
  obtain ⟨-, size, hsize, hpaid⟩ := h
  have hlength : feeLength 2500 = 7 := by decide +kernel
  have hsum : 159 + 16 + feeLength 2500 + 75 = size := Except.ok.inj hsize
  rw [hlength] at hsum
  rw [← hsum] at hpaid
  exact absurd hpaid (by decide)

end BlockchainOps.Algo
