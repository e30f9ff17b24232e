import BlockchainOps.Algo.AssetReconfiguration
import BlockchainOps.Algo.LocalState

/-!
# Changing the reserve of an asset

`changeAssetReserveAddress` reconfigures the asset, then reads whether there is a holding to move
and whether the new reserve is opted in, and then moves the holding. A refusal by the second part
comes after the reconfiguration. So a refused change has changed nothing exactly when there was
nothing to change, and a change that returns has done what it is to do where the addresses can be
set and the new one is not the creator's (`reserve_change_iff`).
-/

namespace BlockchainOps.Algo

open Effect Proc

variable {α β γ : Type} {c : Session} {s t : World}

/-! ## Errors -/

/-- The refusal to move a holding. -/
def notOptedIn (assetId : ℕ) : Error :=
  .text s!"new reserve address is not opted-in to asset {assetId}"

/-- A text that begins otherwise. -/
def otherText (text : String) : Bool := text.toList.head?.any (· ≠ 'n')

/-- An error that begins otherwise, or is no text. -/
def Error.other : Error → Bool
  | .typed _ => true
  | .text message => otherText message

theorem otherText_append {what : String} (h : otherText what = true) (rest : String) :
    otherText (what ++ rest) = true := by
  unfold otherText at h ⊢
  rw [String.toList_append]
  rcases hwhat : what.toList with _ | ⟨letter, letters⟩
  · rw [hwhat] at h
    exact absurd h (by simp)
  · rw [hwhat] at h
    exact h

theorem notOptedIn_other (assetId : ℕ) : (notOptedIn assetId).other = false := by
  show otherText ("new reserve address is not opted-in to asset " ++ toString assetId) = false
  unfold otherText
  rw [String.toList_append]
  rfl

/-- Every error of the program is another one. -/
def RaisesOther (x : Client α) : Prop := ∀ c s e t, x.run c s = (.err e, t) → e.other = true

namespace RaisesOther

theorem bind {x : Client α} {g : α → Client β} (hx : RaisesOther x) (hg : ∀ a, RaisesOther (g a)) :
    RaisesOther (x >>= g) := by
  intro c s e t h
  rcases bind_err_iff.mp h with hfirst | ⟨a, u, -, hrest⟩
  · exact hx c s e t hfirst
  · exact hg a c u e t hrest

theorem pure (a : α) : RaisesOther (pure a) := by
  intro c s e t h
  cases h

theorem ofOutcome {o : Outcome Error α} (ho : ∀ e, o ≠ .err e) :
    RaisesOther (Confined.ofOutcome o : Client α) := by
  intro c s e t h
  exact absurd (congrArg Prod.fst h) (ho e)

theorem ask (f : Env → ℕ → α) : RaisesOther (ask f) := by
  intro c s e t h
  cases h

theorem read (f : Session → World → α) : RaisesOther (Confined.read f) := by
  intro c s e t h
  cases h

theorem raise {e : Error} (he : e.other = true) : RaisesOther (Confined.raise e : Client α) := by
  intro c s e' t h
  cases h
  exact he

theorem bail {message : String} (h : otherText message = true) :
    RaisesOther (bail message : Client α) := raise h

theorem guard {p : Prop} [Decidable p] {message : String} {rest : Unit → Client α}
    (h : otherText message = true) (hrest : RaisesOther (rest ())) :
    RaisesOther (if p then Algo.bail message >>= rest else rest ()) := by
  split_ifs
  · exact (bail h).bind fun _ => hrest
  · exact hrest

theorem orBail {what : String} (h : otherText what = true) (r : Except String α) :
    RaisesOther (orBail what r) := by
  cases r with
  | ok a => exact pure a
  | error e => exact bail (otherText_append (otherText_append h ": ") e)

theorem require {message : String} (h : otherText message = true) (o : Option α) :
    RaisesOther (require message o) := by
  cases o with
  | some a => exact pure a
  | none => exact bail h

/-- Whatever goes wrong, the error begins with what was done. -/
theorem context {what : String} (h : otherText what = true) (x : Client α) :
    RaisesOther (context what x) := by
  intro c s e t hrun
  have hmapped : mapErr (fun e : Error => Error.text s!"{what}: {e.display}") (x.run c) s
      = (.err e, t) := hrun
  rw [mapErr_apply] at hmapped
  rcases hx : x.run c s with ⟨a | e' | w, u⟩ <;> rw [hx] at hmapped <;> cases hmapped
  exact otherText_append (otherText_append h ": ") e'.display

theorem resultOf (x : Client α) : RaisesOther (resultOf x) := by
  intro c s e t hrun
  have hattempt : attempt (x.run c) s = (.err e, t) := hrun
  unfold attempt at hattempt
  rcases hx : x.run c s with ⟨a | e' | w, u⟩ <;> rw [hx] at hattempt <;> cases hattempt

theorem loop {step : γ → Client (γ ⊕ β)} (hstep : ∀ g, RaisesOther (step g)) (fuel : Session → ℕ)
    (g : γ) : RaisesOther (Confined.loop step fuel g) := by
  intro c s e t hrun
  obtain ⟨g', s', hround⟩ := loop_err_round (fuel c) g s hrun
  exact hstep g' c s' e t hround

end RaisesOther

/-! ## The errors of the parts -/

theorem env_raises : RaisesOther env := .read _

theorem algodClient_raises : RaisesOther algodClient := by
  apply RaisesOther.bind (.read _)
  intro ops
  exact env_raises.bind fun _ => .orBail rfl _

theorem parseAddress_raises (address : String) : RaisesOther (parseAddress address) :=
  env_raises.bind fun _ => .orBail rfl _

theorem addressStr_raises : RaisesOther addressStr :=
  RaisesOther.bind (.read _) fun _ => .require rfl _

theorem requireAddress_raises : RaisesOther requireAddress :=
  addressStr_raises.bind parseAddress_raises

theorem seedOfBytes_other {what : String} {bytes : Bytes} {e : Error}
    (h : seedOfBytes what bytes = .error e) : e.other = true := by
  unfold seedOfBytes at h
  split_ifs at h
  cases h
  exact otherText_append (otherText_append (rfl : otherText "invalid passphrase: " = true) what) _

theorem seedFromPassphrase_other {p : KeyPrims} {passphrase : String} {e : Error}
    (h : seedFromPassphrase p passphrase = .error e) : e.other = true := by
  unfold seedFromPassphrase at h
  split at h
  · exact seedOfBytes_other h
  · split at h
    next rest _ =>
      rcases hdecode : p.base64Decode rest with e' | bytes
      · rw [hdecode] at h
        cases h
        exact otherText_append
          (otherText_append (rfl : otherText "invalid passphrase: bad base64 secret (" = true) e') _
      · rw [hdecode] at h
        exact seedOfBytes_other h
    next =>
      cases h
      rfl

theorem privateKeyBytes_raises : RaisesOther privateKeyBytes := by
  intro c s e t h
  have hrun : ofExcept (c.ops.privateKeyBytes c.env.keys) s = (.err e, t) := h
  unfold AlgoOps.privateKeyBytes at hrun
  cases hpass : c.ops.passphrase with
  | none =>
    rw [hpass] at hrun
    cases hrun
    rfl
  | some pass =>
    rw [hpass] at hrun
    dsimp only at hrun
    rcases hseed : seedFromPassphrase c.env.keys pass with e' | seed
    · rw [hseed] at hrun
      cases hrun
      exact seedFromPassphrase_other hseed
    · rw [hseed] at hrun
      cases hrun

theorem paramsFor_raises (client : Algod) : RaisesOther (paramsFor client) := .context rfl _

theorem build_raises {failure : String} (h : otherText failure = true) (sender : Address)
    (kind : TransactionKind) (params : SuggestedParams) :
    RaisesOther (build failure sender kind params) := by
  apply RaisesOther.bind
  · exact (RaisesOther.ask _).bind fun _ => .pure _
  · intro note
    exact env_raises.bind fun _ => .orBail h _

theorem awaitRound_raises (client : Algod) (currentRound : ℕ) :
    RaisesOther (awaitRound client currentRound) :=
  (RaisesOther.context rfl _).bind fun _ => .pure _

theorem waitForConfirmation_raises (txId : String) (timeoutRounds : ℕ) :
    RaisesOther (waitForConfirmation txId timeoutRounds) := by
  apply RaisesOther.guard rfl
  apply RaisesOther.bind algodClient_raises
  intro client
  apply RaisesOther.bind (.context rfl _)
  intro status
  have hadd : ∀ a b, RaisesOther (addU64 a b) := by
    intro a b
    apply RaisesOther.ofOutcome
    intro e
    split_ifs <;> simp
  apply RaisesOther.bind (hadd _ _)
  intro startRound
  apply RaisesOther.bind (hadd _ _)
  intro endRound
  apply RaisesOther.loop
  intro currentRound
  apply RaisesOther.guard
  · have hstart : otherText "Transaction not confirmed after " = true := rfl
    exact otherText_append (otherText_append hstart _) _
  apply RaisesOther.bind (.resultOf _)
  intro result
  cases result with
  | ok p =>
    dsimp only
    split_ifs
    · exact .pure _
    · have hstart : otherText "Transaction rejected with pool error: " = true := rfl
      exact .bail (otherText_append hstart _)
    · exact awaitRound_raises client currentRound
  | error e =>
    dsimp only
    split_ifs
    · exact .raise rfl
    · exact awaitRound_raises client currentRound

theorem submit_raises (client : Algod) {failure : String} (h : otherText failure = true)
    (seed : Wire.Field 32) (tx : Transaction) : RaisesOther (submit client failure seed tx) := by
  apply RaisesOther.bind env_raises
  intro env
  apply RaisesOther.bind (.orBail h _)
  intro signed
  apply RaisesOther.bind env_raises
  intro env'
  apply RaisesOther.bind (.orBail rfl _)
  intro bytes
  apply RaisesOther.bind (.context rfl _)
  intro response
  exact (waitForConfirmation_raises _ _).bind fun _ => .pure _

theorem reserveTx_raises (assetId : ℕ) (reserveAddress : String) :
    RaisesOther (reserveTx assetId reserveAddress) := by
  apply RaisesOther.guard rfl
  apply RaisesOther.bind (.context rfl _)
  intro newReserve
  apply RaisesOther.bind privateKeyBytes_raises
  intro sk
  apply RaisesOther.bind requireAddress_raises
  intro signerAddr
  apply RaisesOther.bind algodClient_raises
  intro client
  apply RaisesOther.bind ((RaisesOther.context rfl _).bind fun _ => .orBail rfl _)
  intro v
  apply RaisesOther.bind (.require rfl _)
  intro creatorStr
  apply RaisesOther.bind env_raises
  intro env
  apply RaisesOther.bind addressStr_raises
  intro text
  apply RaisesOther.bind (.orBail rfl _)
  intro caller
  apply RaisesOther.bind env_raises
  intro env'
  apply RaisesOther.guard rfl
  apply RaisesOther.bind (paramsFor_raises client)
  intro params
  exact (build_raises rfl _ _ _).bind fun _ => .pure _

theorem reconfigureReserve_raises (assetId : ℕ) (reserveAddress : String) :
    RaisesOther (reconfigureReserve assetId reserveAddress) := by
  apply RaisesOther.bind (reserveTx_raises assetId reserveAddress)
  intro prepared
  exact (submit_raises _ rfl _ _).bind fun _ => .pure _

theorem sendAsset_raises (assetId amount : ℕ) (toAddress : String) :
    RaisesOther (sendAsset assetId amount toAddress) := by
  apply RaisesOther.guard rfl
  apply RaisesOther.guard rfl
  apply RaisesOther.bind privateKeyBytes_raises
  intro sk
  apply RaisesOther.bind requireAddress_raises
  intro from_
  apply RaisesOther.bind (parseAddress_raises toAddress)
  intro to_
  apply RaisesOther.bind algodClient_raises
  intro client
  apply RaisesOther.bind (paramsFor_raises client)
  intro params
  apply RaisesOther.bind (build_raises rfl _ _ _)
  intro tx
  exact (submit_raises _ rfl _ _).bind fun _ => .pure _

/-! ## What the node tells of an account -/

/-- A reply lists what an account holds: each row of an asset, and a row for each. -/
structure ListsHoldings (l : AssetLedger) (account : Address) (v : Json) : Prop where
  row : ∀ row ∈ holdings v, ∃ id held : ℕ, row.get "asset-id" = some (.int id) ∧ id < 2 ^ 64 ∧
    row.get "amount" = some (.int held) ∧ held < 2 ^ 64 ∧ l.holdings account id = some held
  listed : ∀ id held, l.holdings account id = some held →
    ∃ row ∈ holdings v, row.get "asset-id" = some (.int (id : ℕ))

theorem holdingAssetId_eq {row : Json} {id : ℕ} (h : row.get "asset-id" = some (.int id))
    (hid : id < 2 ^ 64) : holdingAssetId row = id := by
  have hread : (row.get "asset-id" >>= Json.asU64) = some id := by
    rw [h]
    exact asU64_natCast hid
  unfold holdingAssetId
  rw [hread]
  rfl

/-- The amount that is read is the one that is held. -/
theorem ListsHoldings.amount_eq {l : AssetLedger} {account : Address} {v : Json}
    (h : ListsHoldings l account v) (assetId : ℕ) :
    parseHoldingAmountFromAccountValue v assetId = l.amount account assetId := by
  unfold parseHoldingAmountFromAccountValue AssetLedger.amount
  cases hfind : (holdings v).find? fun holding => holdingAssetId holding = assetId with
  | some row =>
    obtain ⟨id, held, hid, hidlt, hamount, hheld, hholding⟩ :=
      h.row row (List.mem_of_find?_eq_some hfind)
    have hsame : holdingAssetId row = assetId := by simpa using List.find?_some hfind
    rw [holdingAssetId_eq hid hidlt] at hsame
    have hread : (row.get "amount" >>= Json.asU64) = some held := by
      rw [hamount]
      exact asU64_natCast hheld
    rw [← hsame, hholding]
    dsimp only
    rw [hread]
  | none =>
    cases hholding : l.holdings account assetId with
    | none => rfl
    | some held =>
      obtain ⟨row, hmem, hid⟩ := h.listed assetId held hholding
      obtain ⟨id, -, hid', hidlt, -⟩ := h.row row hmem
      have hsame : assetId = id := by
        rw [hid] at hid'
        simpa using hid'
      have hmissed := List.find?_eq_none.mp hfind row hmem
      rw [holdingAssetId_eq hid' hidlt] at hmissed
      exact absurd hsame.symm (by simpa using hmissed)

/-- The node's reads of accounts and assets show the ledger of their moment. -/
structure AssetChain.Truthful {client : Algod} {library : Algonaut}
    (K : AssetChain client library) : Prop where
  account : ∀ a m after info v, client.account a m = .done after (.ok info) → info.value = .ok v →
    ListsHoldings (K.state m) a v
  asset : ∀ assetId m after v, client.asset assetId m = .done after (.ok (.ok v)) →
    ∃ p, (K.state m).assets assetId = some p ∧
      paramStr v "creator" = some (library.addressText p.creator)

/-! ## The parts that read and move -/

theorem isAccountOptedInToAsset_sends (accountAddress : String) (assetId : ℕ) :
    Sends quiet (isAccountOptedInToAsset accountAddress assetId) := by
  apply Sends.guard
  apply Sends.bind (.of_local algodClient_local)
  intro client
  apply Sends.bind (.of_local (parseAddress_local accountAddress))
  intro address
  have hread : Sends quiet (resultOf (algodCall (client.accountCall address))) :=
    .resultOf (.algodCall _ rfl rfl)
  apply Sends.bind hread
  intro result
  cases result with
  | error e => exact .of_local (Local.pure _)
  | ok info => exact .of_local ((Local.orBail _ _).bind fun _ => Local.pure _)

theorem holdingToMove_sends (client : Algod) (signerAddr : Address) (assetId : ℕ)
    (reserveAddress : String) :
    Sends quiet (holdingToMove client signerAddr assetId reserveAddress) := by
  apply Sends.bind
  · apply Sends.bind (call_sends _ rfl rfl)
    intro info
    exact .of_local ((Local.orBail _ _).bind fun _ => Local.pure _)
  · intro creatorAmount
    split_ifs
    · exact .of_local (Local.pure _)
    · apply Sends.bind (isAccountOptedInToAsset_sends reserveAddress assetId)
      intro optedIn
      exact .guard (.of_local (Local.pure _))

/-- Time does not go back. -/
def Later (s t : World) : Prop := s.moment ≤ t.moment

instance : Std.Refl Later := ⟨fun s => Nat.le_refl s.moment⟩

instance : IsTrans World Later := ⟨fun _ _ _ h h' => Nat.le_trans h h'⟩

theorem algodCall_later (call : NodeCall α) (hreply : call.reply = replyOf) (c : Session) :
    Respects Later ((algodCall call).run c) := by
  intro s
  obtain ⟨events, -, hends⟩ := algodCall_ends call hreply c s
  exact hends.moment

theorem orBail_later (what : String) (r : Except String α) (c : Session) :
    Respects Later ((orBail what r).run c) := by
  cases r with
  | ok a => exact Respects.pure a
  | error e => exact Respects.raise _

/-- A program that a guard may end only lasts as long as its rest. -/
theorem guard_later {p : Prop} [Decidable p] {message : String} {rest : Unit → Client α}
    (c : Session) (h : Respects Later ((rest ()).run c)) :
    Respects Later ((if p then bail message >>= rest else rest ()).run c) := by
  split_ifs
  · exact (Respects.raise _).bind fun _ => h
  · exact h

theorem holdingOf_later (client : Algod) (account : Address) (assetId : ℕ) (who : String)
    (c : Session) : Respects Later ((holdingOf client account assetId who).run c) := by
  apply Respects.bind ((algodCall_later _ rfl c).mapErr)
  intro info
  exact (orBail_later _ _ c).bind fun _ => Respects.pure _

theorem isAccountOptedInToAsset_later (accountAddress : String) (assetId : ℕ) (c : Session) :
    Respects Later ((isAccountOptedInToAsset accountAddress assetId).run c) := by
  apply guard_later
  have hclient : Respects Later (algodClient.run c) :=
    orBail_later "failed to construct Algod client" c.algod c
  have haddress : Respects Later ((parseAddress accountAddress).run c) :=
    orBail_later "invalid address" (c.env.algonaut.parseAddress accountAddress) c
  apply Respects.bind hclient
  intro client
  apply Respects.bind haddress
  intro address
  apply Respects.bind ((algodCall_later _ rfl c).attempt)
  intro result
  cases result with
  | error e => exact Respects.pure _
  | ok info => exact (orBail_later _ _ c).bind fun _ => Respects.pure _

theorem holdingToMove_later (client : Algod) (signerAddr : Address) (assetId : ℕ)
    (reserveAddress : String) (c : Session) :
    Respects Later ((holdingToMove client signerAddr assetId reserveAddress).run c) := by
  apply Respects.bind (holdingOf_later client signerAddr assetId "creator" c)
  intro creatorAmount
  dsimp only
  split_ifs
  · exact Respects.pure _
  · apply Respects.bind (isAccountOptedInToAsset_later reserveAddress assetId c)
    intro optedIn
    exact guard_later c (Respects.pure _)

theorem holdingOf_ok {client : Algod} {account : Address} {assetId : ℕ} {who : String} {n : ℕ}
    (h : (holdingOf client account assetId who).run c s = (.ok n, t)) :
    ∃ after info v, s.moment < t.moment ∧
      client.account account (t.moment - 1) = .done after (.ok info) ∧ info.value = .ok v ∧
      parseHoldingAmountFromAccountValue v assetId = n := by
  obtain ⟨info, u, hcall, h⟩ := bind_ok_iff.mp h
  obtain ⟨v, w, hvalue, hlast⟩ := bind_ok_iff.mp h
  obtain ⟨hserialized, rfl⟩ := orBail_ok_iff.mp hvalue
  cases hlast
  obtain ⟨⟨after, hsettled⟩, hmoment⟩ := context_ok rfl hcall
  exact ⟨after, info, v, hmoment, hsettled, hserialized, rfl⟩

/-- What is to be moved is what was read of the holding. -/
theorem holdingToMove_ok {client : Algod} {signerAddr : Address} {assetId : ℕ}
    {reserveAddress : String} {n : ℕ}
    (h : (holdingToMove client signerAddr assetId reserveAddress).run c s = (.ok n, t)) :
    ∃ m after info v, s.moment ≤ m ∧ m ≤ t.moment ∧
      client.account signerAddr m = .done after (.ok info) ∧ info.value = .ok v ∧
      parseHoldingAmountFromAccountValue v assetId = n := by
  obtain ⟨creatorAmount, u, hread, h⟩ := bind_ok_iff.mp h
  obtain ⟨after, info, v, hmoment, hsettled, hvalue, hamount⟩ := holdingOf_ok hread
  have hlater : u.moment ≤ t.moment ∧ n = creatorAmount := by
    dsimp only at h
    split_ifs at h with hzero
    · cases h
      exact ⟨le_refl _, hzero.symm⟩
    · obtain ⟨optedIn, w, hoptedIn, h⟩ := bind_ok_iff.mp h
      obtain ⟨-, h⟩ := guard_ok h
      have hlast := isAccountOptedInToAsset_later reserveAddress assetId c u
      rw [hoptedIn] at hlast
      cases h
      exact ⟨hlast, rfl⟩
  refine ⟨u.moment - 1, after, info, v, by omega, by omega, hsettled, hvalue, ?_⟩
  rw [hlater.2]
  exact hamount

/-- The first part of `sendAsset`, up to the submission. -/
def transferTx (assetId amount : ℕ) (toAddress : String) :
    Client (Algod × Wire.Field 32 × Transaction) := do
  if assetId = 0 then bail "asset_id must be > 0"
  if amount = 0 then bail "amount must be > 0"
  let sk ← privateKeyBytes
  let from_ ← requireAddress
  let to_ ← parseAddress toAddress
  let client ← algodClient
  let params ← paramsFor client
  let tx ← build "failed to build asset transfer transaction" from_
    (.transferAsset assetId amount to_) params
  pure (client, sk, tx)

theorem sendAsset_eq (assetId amount : ℕ) (toAddress : String) :
    sendAsset assetId amount toAddress = (do
      let (client, sk, tx) ← transferTx assetId amount toAddress
      let _ ← submit client "failed to sign asset transfer transaction" sk tx
      pure ()) := by
  unfold sendAsset transferTx
  by_cases hasset : assetId = 0
  · rw [if_pos hasset, if_pos hasset]
    rfl
  rw [if_neg hasset, if_neg hasset]
  by_cases hamount : amount = 0
  · rw [if_pos hamount, if_pos hamount]
    rfl
  rw [if_neg hamount, if_neg hamount]
  simp only [Confined.bind_assoc]
  rfl

theorem transferTx_sends (assetId amount : ℕ) (toAddress : String) :
    Sends quiet (transferTx assetId amount toAddress) := by
  apply Sends.guard
  apply Sends.guard
  apply Sends.bind (.lift _)
  intro sk
  apply Sends.bind (.of_local requireAddress_local)
  intro from_
  apply Sends.bind (.of_local (parseAddress_local toAddress))
  intro to_
  apply Sends.bind (.of_local algodClient_local)
  intro client
  apply Sends.bind (paramsFor_sends client)
  intro params
  apply Sends.bind (buildWithFee_sends _ _ _ _ _)
  intro tx
  exact .of_local (Local.pure _)

/-- A transfer that returns was submitted and applied. -/
theorem sendAsset_ok {client : Algod} (K : AssetChain client c.env.algonaut)
    (hlaws : c.env.algonaut.Lawful) (hclient : c.algod = .ok client) {assetId amount : ℕ}
    {toAddress : String} (h : (sendAsset assetId amount toAddress).run c s = (.ok (), t)) :
    ∃ text sender receiver tx, c.ops.address = some text ∧
      c.env.algonaut.parseAddress text = .ok sender ∧
      c.env.algonaut.parseAddress toAddress = .ok receiver ∧ tx.sender = sender ∧
      tx.kind = .transferAsset assetId amount receiver ∧ K.Submitted s t tx := by
  rw [sendAsset_eq] at h
  obtain ⟨⟨client', sk, tx⟩, u, hbuilt, h⟩ := bind_ok_iff.mp h
  obtain ⟨txId, v, hsubmit, h⟩ := bind_ok_iff.mp h
  cases h
  obtain ⟨-, h⟩ := guard_ok hbuilt
  obtain ⟨-, h⟩ := guard_ok h
  obtain ⟨sk', u₁, -, h⟩ := bind_ok_iff.mp h
  obtain ⟨sender, u₂, hsender, h⟩ := bind_ok_iff.mp h
  obtain ⟨receiver, u₃, hreceiver, h⟩ := bind_ok_iff.mp h
  obtain ⟨client'', u₄, hclient', h⟩ := bind_ok_iff.mp h
  obtain ⟨params, u₅, -, h⟩ := bind_ok_iff.mp h
  obtain ⟨tx', u₆, htx, h⟩ := bind_ok_iff.mp h
  cases h
  obtain rfl : client' = client :=
    Except.ok.inj ((algodClient_ok hclient').symm.trans hclient)
  obtain ⟨text, haddress, hparsed⟩ := requireAddress_ok hsender
  obtain ⟨hfrom, hkind⟩ := build_ok hlaws htx
  exact ⟨text, sender, receiver, tx, haddress, hparsed, parseAddress_ok hreceiver, hfrom, hkind,
    K.built_submitted hlaws hclient (transferTx_sends assetId amount toAddress) hbuilt hsubmit⟩

/-! ## The runs of a change -/

/-- A refusal comes from the reads, after the reconfiguration. -/
theorem changeAssetReserveAddress_refused {assetId : ℕ} {reserveAddress : String}
    (h : (changeAssetReserveAddress assetId reserveAddress).run c s
      = (.err (notOptedIn assetId), t)) :
    ∃ r u, (reconfigureReserve assetId reserveAddress).run c s = (.ok r, u) ∧
      (holdingToMove r.1 r.2 assetId reserveAddress).run c u = (.err (notOptedIn assetId), t) := by
  rw [changeAssetReserveAddress_eq] at h
  have hother := notOptedIn_other assetId
  rcases bind_err_iff.mp h with hfirst | ⟨r, u, hfirst, hrest⟩
  · rw [reconfigureReserve_raises assetId reserveAddress c s _ _ hfirst] at hother
    exact absurd hother (by simp)
  · refine ⟨r, u, hfirst, ?_⟩
    rcases bind_err_iff.mp hrest with hreads | ⟨n, v, -, hmoves⟩
    · exact hreads
    · have hmove : RaisesOther (moveHolding assetId reserveAddress n) := by
        unfold moveHolding
        split_ifs
        · exact .pure _
        · exact sendAsset_raises assetId n reserveAddress
      rw [hmove c v _ t hmoves] at hother
      exact absurd hother (by simp)

theorem changeAssetReserveAddress_ok {assetId : ℕ} {reserveAddress : String}
    (h : (changeAssetReserveAddress assetId reserveAddress).run c s = (.ok (), t)) :
    ∃ r u n v, (reconfigureReserve assetId reserveAddress).run c s = (.ok r, u) ∧
      (holdingToMove r.1 r.2 assetId reserveAddress).run c u = (.ok n, v) ∧
      (moveHolding assetId reserveAddress n).run c v = (.ok (), t) := by
  rw [changeAssetReserveAddress_eq] at h
  obtain ⟨r, u, hfirst, h⟩ := bind_ok_iff.mp h
  obtain ⟨n, v, hreads, hmoves⟩ := bind_ok_iff.mp h
  exact ⟨r, u, n, v, hfirst, hreads, hmoves⟩

/-- Nobody but the client acts, in each part of a change. -/
structure AssetChain.Undisturbed {client : Algod} {library : Algonaut}
    (K : AssetChain client library) (c : Session) (assetId : ℕ) (reserveAddress : String)
    (s : World) : Prop where
  reconfigures : K.Alone s ((reconfigureReserve assetId reserveAddress).run c s).2
  reads : ∀ r u, (reconfigureReserve assetId reserveAddress).run c s = (.ok r, u) →
    K.Alone u ((holdingToMove r.1 r.2 assetId reserveAddress).run c u).2
  moves : ∀ r u n v, (reconfigureReserve assetId reserveAddress).run c s = (.ok r, u) →
    (holdingToMove r.1 r.2 assetId reserveAddress).run c u = (.ok n, v) →
    K.Alone v ((moveHolding assetId reserveAddress n).run c v).2

/-! ## The ledger after a change -/

theorem Address.replaced_eq_self_iff {old new : Address} :
    old.replaced (some new) = old ↔ old = .zero ∨ old = new := by
  unfold replaced
  by_cases hold : old = .zero
  · rw [if_pos hold]
    simp [hold]
  · rw [if_neg hold]
    simp [hold, eq_comm]

theorem Address.replaced_eq_new_iff {old new : Address} :
    old.replaced (some new) = new ↔ new = .zero ∨ old ≠ .zero := by
  unfold replaced
  by_cases hold : old = .zero
  · rw [if_pos hold]
    simp [hold, eq_comm]
  · rw [if_neg hold]
    simp [hold]

section Change

variable {client : Algod} {K : AssetChain client c.env.algonaut} {assetId : ℕ}
  {reserveAddress : String} {r : Algod × Address} {u v : World} {n : ℕ}

/-- The ledger after the reconfiguration, and who signed it. -/
structure Reconfigured (K : AssetChain client c.env.algonaut) (assetId : ℕ) (s u : World)
    (signer new : Address) (p : AssetParams) : Prop where
  before : (K.state s.moment).assets assetId = some p
  after : K.state u.moment = (K.state s.moment).configure assetId
    { p with
      reserve := p.reserve.replaced (some new)
      freeze := .zero
      clawback := p.clawback.replaced (some new) }
  creator : p.creator = signer

theorem reconfigureReserve_reconfigured (htruth : K.Truthful) (hlaws : c.env.algonaut.Lawful)
    (htext : Function.Injective c.env.algonaut.addressText) (hclient : c.algod = .ok client)
    (h : (reconfigureReserve assetId reserveAddress).run c s = (.ok r, u)) (halone : K.Alone s u) :
    r.1 = client ∧ ∃ new p, c.env.algonaut.parseAddress reserveAddress = .ok new ∧
      (∃ text, c.ops.address = some text ∧ c.env.algonaut.parseAddress text = .ok r.2) ∧
      Reconfigured K assetId s u r.2 new p := by
  obtain ⟨hconnected, new, tx, htx, hsubmitted⟩ := reconfigureReserve_ok K hlaws hclient h
  obtain ⟨p, hbefore, hafter⟩ := htx.reconfigures.apply_eq (hsubmitted.apply_eq halone)
  obtain ⟨m, after, v, hread, hnamed⟩ := htx.creator
  obtain ⟨q, hq, hcreator⟩ := htruth.asset assetId m after v hread
  -- the node named the creator, who never changes
  have hsigner : r.2 = q.creator := by
    apply htext
    unfold assetCreator at hnamed
    rw [hcreator] at hnamed
    exact (Option.some.inj hnamed).symm
  have hsame := K.state_invariant
    (f := fun l : AssetLedger => (l.assets assetId).map AssetParams.creator)
    (AssetLedger.apply_creator assetId) m s.moment
  rw [hq, hbefore] at hsame
  exact ⟨hconnected, new, p, htx.parsed, htx.signs, hbefore, hafter,
    (Option.some.inj hsame).symm.trans hsigner.symm⟩

/-- The reads leave the ledger alone. -/
theorem state_after_reads (hrun : ((holdingToMove r.1 r.2 assetId reserveAddress).run c u).2 = v)
    (halone : K.Alone u v) {m : ℕ} (hfrom : u.moment ≤ m) (hto : m ≤ v.moment) :
    K.state m = K.state u.moment := by
  have hquiet : u.SendsOnly quiet v := by
    rw [← hrun]
    exact holdingToMove_sends r.1 r.2 assetId reserveAddress c u
  exact K.state_of_quiet hquiet halone hfrom hto

/-- A refused change leaves the ledger as the reconfiguration left it. -/
theorem refused_state (hlaws : c.env.algonaut.Lawful) (htruth : K.Truthful)
    (htext : Function.Injective c.env.algonaut.addressText) (hclient : c.algod = .ok client)
    (halone : K.Undisturbed c assetId reserveAddress s)
    (h : (changeAssetReserveAddress assetId reserveAddress).run c s
      = (.err (notOptedIn assetId), t)) :
    ∃ signer new p, c.env.algonaut.parseAddress reserveAddress = .ok new ∧
      Reconfigured K assetId s t signer new p := by
  obtain ⟨r, u, hfirst, hreads⟩ := changeAssetReserveAddress_refused h
  have hrest := halone.reads r u hfirst
  have hlater := holdingToMove_later r.1 r.2 assetId reserveAddress c u
  have hreconfigures := halone.reconfigures
  rw [hreads] at hrest hlater
  rw [hfirst] at hreconfigures
  obtain ⟨-, new, p, hnew, -, hset⟩ :=
    reconfigureReserve_reconfigured htruth hlaws htext hclient hfirst hreconfigures
  have hsame : K.state t.moment = K.state u.moment :=
    state_after_reads (congrArg Prod.snd hreads) hrest hlater (le_refl _)
  exact ⟨r.2, new, p, hnew, hset.before, hsame.trans hset.after, hset.creator⟩

/-- A change that returns has also moved the holding, unless it was to be moved to its holder. -/
theorem returned_state (hlaws : c.env.algonaut.Lawful) (htruth : K.Truthful)
    (htext : Function.Injective c.env.algonaut.addressText) (hclient : c.algod = .ok client)
    (halone : K.Undisturbed c assetId reserveAddress s)
    (h : (changeAssetReserveAddress assetId reserveAddress).run c s = (.ok (), t)) :
    ∃ signer new p, c.env.algonaut.parseAddress reserveAddress = .ok new ∧
      (K.state s.moment).assets assetId = some p ∧ p.creator = signer ∧
      (K.state t.moment).assets assetId = some
        { p with
          reserve := p.reserve.replaced (some new)
          freeze := .zero
          clawback := p.clawback.replaced (some new) } ∧
      (K.state t.moment).amount signer assetId
        = if new = signer then (K.state s.moment).amount signer assetId else 0 := by
  obtain ⟨r, u, n, v, hfirst, hreads, hmoves⟩ := changeAssetReserveAddress_ok h
  have hreconfigures := halone.reconfigures
  have hrest := halone.reads r u hfirst
  have hmoved := halone.moves r u n v hfirst hreads
  rw [hfirst] at hreconfigures
  rw [hreads] at hrest
  rw [hmoves] at hmoved
  obtain ⟨hconnected, new, p, hnew, ⟨text, haddress, hparsed⟩, hset⟩ :=
    reconfigureReserve_reconfigured htruth hlaws htext hclient hfirst hreconfigures
  -- what was read is what the signer holds, before and after the reconfiguration
  obtain ⟨m, after, info, value, hfrom, hto, hread, hvalue, hamount⟩ := holdingToMove_ok hreads
  rw [hconnected] at hread
  rw [(htruth.account r.2 m after info value hread hvalue).amount_eq,
    state_after_reads (congrArg Prod.snd hreads) hrest hfrom hto] at hamount
  have hv : K.state v.moment = K.state u.moment :=
    state_after_reads (congrArg Prod.snd hreads) hrest (by omega) (le_refl _)
  have hheld : (K.state s.moment).amount r.2 assetId = n := by
    rw [← hamount, hset.after]
    rfl
  have hassets : (K.state u.moment).assets assetId = some
      { p with
        reserve := p.reserve.replaced (some new)
        freeze := .zero
        clawback := p.clawback.replaced (some new) } := by
    rw [hset.after, AssetLedger.configure_assets, Function.update_self]
  refine ⟨r.2, new, p, hnew, hset.before, hset.creator, ?_⟩
  have hmove : (moveHolding assetId reserveAddress n).run c v = (.ok (), t) := hmoves
  unfold moveHolding at hmove
  by_cases hzero : n = 0
  · rw [if_pos hzero] at hmove
    cases hmove
    rw [hv, hamount, hheld, hzero]
    refine ⟨hassets, ?_⟩
    split_ifs <;> rfl
  · rw [if_neg hzero] at hmove
    obtain ⟨text', sender, receiver, tx, haddress', hparsed', hreceiver, hfrom', hkind,
      hsubmitted⟩ := sendAsset_ok K hlaws hclient hmove
    have hsender : sender = r.2 := by
      rw [Option.some.inj (haddress'.symm.trans haddress), hparsed] at hparsed'
      exact (Except.ok.inj hparsed').symm
    have htarget : receiver = new := Except.ok.inj (hreceiver.symm.trans hnew)
    obtain ⟨hkept, hleft⟩ := AssetLedger.apply_transferAsset hkind (hsubmitted.apply_eq hmoved)
    rw [hfrom', hsender, htarget, hv, hamount, Nat.sub_self] at hleft
    rw [hkept, hv, hleft, hheld]
    exact ⟨hassets, rfl⟩

end Change

/-! ## What is claimed of it -/

namespace AssetLedger

/-- The addresses of the asset and all holdings are the same. -/
def Unchanged (assetId : ℕ) (l l' : AssetLedger) : Prop :=
  l'.assets assetId = l.assets assetId ∧ l'.holdings = l.holdings

/-- The asset has the reserve and the clawback, and its creator holds nothing of it. -/
def ReserveMoved (assetId : ℕ) (new : Address) (l : AssetLedger) : Prop :=
  ∃ p, l.assets assetId = some p ∧ p.reserve = new ∧ p.clawback = new ∧
    l.amount p.creator assetId = 0

/-- A reconfiguration has nothing to change. -/
def NothingToChange (assetId : ℕ) (new : Address) (l : AssetLedger) : Prop :=
  ∃ p, l.assets assetId = some p ∧ p.freeze = .zero ∧ (p.reserve = .zero ∨ p.reserve = new) ∧
    (p.clawback = .zero ∨ p.clawback = new)

/-- The addresses can be set, and the holding is not to be moved to its holder. -/
def Movable (assetId : ℕ) (new : Address) (l : AssetLedger) : Prop :=
  ∃ p, l.assets assetId = some p ∧ (new = .zero ∨ p.reserve ≠ .zero ∧ p.clawback ≠ .zero) ∧
    (new ≠ p.creator ∨ l.amount p.creator assetId = 0)

end AssetLedger

section Change

variable {client : Algod} {K : AssetChain client c.env.algonaut} {assetId : ℕ}

theorem Reconfigured.unchanged_iff {signer new : Address} {p : AssetParams}
    (h : Reconfigured K assetId s t signer new p) :
    (K.state s.moment).Unchanged assetId (K.state t.moment)
      ↔ (K.state s.moment).NothingToChange assetId new := by
  unfold AssetLedger.Unchanged AssetLedger.NothingToChange
  rw [h.after, AssetLedger.configure_assets, Function.update_self, h.before]
  constructor
  · rintro ⟨hassets, -⟩
    have hsame := Option.some.inj hassets
    refine ⟨p, rfl, (congrArg AssetParams.freeze hsame).symm, ?_, ?_⟩
    · exact Address.replaced_eq_self_iff.mp (congrArg AssetParams.reserve hsame)
    · exact Address.replaced_eq_self_iff.mp (congrArg AssetParams.clawback hsame)
  · rintro ⟨q, hq, hfreeze, hreserve, hclawback⟩
    obtain rfl : p = q := Option.some.inj hq
    refine ⟨?_, rfl⟩
    rw [Address.replaced_eq_self_iff.mpr hreserve, Address.replaced_eq_self_iff.mpr hclawback,
      ← hfreeze]

theorem reserveMoved_iff {l l' : AssetLedger} {new : Address} {p : AssetParams}
    (hbefore : l.assets assetId = some p)
    (hafter : l'.assets assetId = some
      { p with
        reserve := p.reserve.replaced (some new)
        freeze := .zero
        clawback := p.clawback.replaced (some new) })
    (hamount : l'.amount p.creator assetId
      = if new = p.creator then l.amount p.creator assetId else 0) :
    l'.ReserveMoved assetId new ↔ l.Movable assetId new := by
  have hleft : l'.amount p.creator assetId = 0 ↔
      new ≠ p.creator ∨ l.amount p.creator assetId = 0 := by
    rw [hamount]
    by_cases hself : new = p.creator
    · rw [if_pos hself]
      simp [hself]
    · rw [if_neg hself]
      simp [hself]
  constructor
  · rintro ⟨q, hq, hreserve, hclawback, hnone⟩
    rw [← Option.some.inj (hafter.symm.trans hq)] at hreserve hclawback hnone
    refine ⟨p, hbefore, ?_, hleft.mp hnone⟩
    rcases Address.replaced_eq_new_iff.mp hreserve with hzero | hset
    · exact Or.inl hzero
    · exact (Address.replaced_eq_new_iff.mp hclawback).imp_right fun hset' => ⟨hset, hset'⟩
  · rintro ⟨q, hq, haddresses, hholding⟩
    obtain rfl : p = q := Option.some.inj (hbefore.symm.trans hq)
    refine ⟨_, hafter, ?_, ?_, hleft.mpr hholding⟩
    · exact Address.replaced_eq_new_iff.mpr (haddresses.imp_right And.left)
    · exact Address.replaced_eq_new_iff.mpr (haddresses.imp_right And.right)

end Change

/-- A refused change of the reserve has changed nothing exactly when there was nothing to change,
and one that returns has moved the reserve exactly when it could be moved. -/
theorem reserve_change_iff {client : Algod} (K : AssetChain client c.env.algonaut)
    (htruth : K.Truthful) (hlaws : c.env.algonaut.Lawful)
    (htext : Function.Injective c.env.algonaut.addressText) (hclient : c.algod = .ok client)
    (assetId : ℕ) (reserveAddress : String) (s : World)
    (halone : K.Undisturbed c assetId reserveAddress s) :
    let run := (changeAssetReserveAddress assetId reserveAddress).run c s
    let before := K.state s.moment
    let after := K.state run.2.moment
    (run.1 = .err (notOptedIn assetId) →
      ∃ new, c.env.algonaut.parseAddress reserveAddress = .ok new ∧
        (before.Unchanged assetId after ↔ before.NothingToChange assetId new)) ∧
    (run.1 = .ok () →
      ∃ new, c.env.algonaut.parseAddress reserveAddress = .ok new ∧
        (after.ReserveMoved assetId new ↔ before.Movable assetId new)) := by
  intro run before after
  constructor
  · intro hrefused
    have hrun : (changeAssetReserveAddress assetId reserveAddress).run c s
        = (.err (notOptedIn assetId), run.2) := Prod.ext hrefused rfl
    obtain ⟨signer, new, p, hnew, hset⟩ := refused_state hlaws htruth htext hclient halone hrun
    exact ⟨new, hnew, hset.unchanged_iff⟩
  · intro hok
    have hrun : (changeAssetReserveAddress assetId reserveAddress).run c s = (.ok (), run.2) :=
      Prod.ext hok rfl
    obtain ⟨signer, new, p, hnew, hbefore, hcreator, hafter, hamount⟩ :=
      returned_state hlaws htruth htext hclient halone hrun
    rw [← hcreator] at hamount
    exact ⟨new, hnew, reserveMoved_iff hbefore hafter hamount⟩

/-! ## An asset that is held, or not -/

namespace LocalNode

theorem ofUInt8_injective : Function.Injective Char.ofUInt8 := by
  intro a b h
  have hval : a.toUInt32 = b.toUInt32 := congrArg Char.val h
  have hnat := congrArg UInt32.toNat hval
  rw [UInt8.toNat_toUInt32, UInt8.toNat_toUInt32] at hnat
  exact UInt8.toNat_inj.mp hnat

/-- The two names are no texts of bytes. -/
theorem name_ne {name : String} (h : name.toList.head? ≠ some 'X') (text : String) :
    name ≠ "X" ++ text := by
  intro hsame
  apply h
  rw [hsame, String.toList_append]
  rfl

theorem addressText_injective : Function.Injective assetLibrary.addressText := by
  intro a b h
  have hname : ("A" : String) ≠ "B" := by decide
  unfold assetLibrary at h
  dsimp only at h
  split_ifs at h with ha hb hb' ha' hb hb' hb hb'
  · rw [ha, hb]
  · exact absurd h hname
  · exact absurd h (name_ne (by decide) _)
  · exact absurd h.symm hname
  · rw [ha', hb']
  · exact absurd h (name_ne (by decide) _)
  · exact absurd h.symm (name_ne (by decide) _)
  · exact absurd h.symm (name_ne (by decide) _)
  · have hbytes : a.bytes.1 = b.bytes.1 := by
      have htext := congrArg String.toList h
      rw [String.toList_append, String.toList_append] at htext
      have hletters := List.append_cancel_left htext
      rw [String.toList_ofList, String.toList_ofList] at hletters
      exact List.map_injective_iff.mpr ofUInt8_injective hletters
    cases a
    cases b
    congr 1
    exact Subtype.ext hbytes

/-- The configuration leaves the holdings alone. -/
theorem ledgerAt_holdings (freeze : Address) (held m : ℕ) :
    (ledgerAt freeze held m).holdings = (ledger7 freeze held).holdings := by
  unfold ledgerAt
  split_ifs <;> rfl

theorem assetChain_truthful (freeze : Address) {held : ℕ} (hheld : held < 2 ^ 64) :
    (assetChain freeze held).Truthful where
  account := by
    intro a m after info v h hvalue
    cases h
    cases hvalue
    have hholdings : ((assetChain freeze held).state m).holdings
        = fun a id => if a = account 1 ∧ id = 7 then some held else none :=
      ledgerAt_holdings freeze held m
    have hrows : holdings
        (.obj [("assets", .arr (if a = account 1 then [holdingRow held] else []))])
        = if a = account 1 then [holdingRow held] else [] := rfl
    constructor
    · intro row hrow
      rw [hrows] at hrow
      split_ifs at hrow with ha
      · rw [List.mem_singleton.mp hrow, hholdings]
        exact ⟨7, held, rfl, by decide, rfl, hheld, if_pos ⟨ha, rfl⟩⟩
      · exact absurd hrow (List.not_mem_nil)
    · intro id held' hlisted
      rw [hholdings] at hlisted
      dsimp only at hlisted
      split_ifs at hlisted with hid
      rw [hrows, if_pos hid.1, hid.2]
      exact ⟨holdingRow held, List.mem_singleton_self _, rfl⟩
  asset := by
    intro assetId m after v h
    have hread : (if assetId = 7 then _ else _ : Settled (Except NodeError Serialized))
        = .done after (.ok (.ok v)) := h
    split_ifs at hread with hid
    cases hread
    rw [hid]
    by_cases hm : 4 ≤ m
    · have hstate : (assetChain freeze held).state m = (ledger7 freeze held).configure 7
          ((asset7 freeze).reconfigured (reserveAndClawback (account 1) (account 2))) := if_pos hm
      rw [hstate, AssetLedger.configure_assets]
      exact ⟨_, Function.update_self _ _ _, rfl⟩
    · have hstate : (assetChain freeze held).state m = ledger7 freeze held := if_neg hm
      rw [hstate]
      exact ⟨_, rfl, rfl⟩

/-- Once the configuration is applied, nothing else is. -/
theorem applied_after (freeze : Address) (held : ℕ) {m n : ℕ} (hm : 4 ≤ m) :
    ∀ tx ∈ (assetChain freeze held).applied n, tx ∈ (assetChain freeze held).applied m := by
  intro tx htx
  have happlied : (assetChain freeze held).applied m = [configTx] := if_pos hm
  have hlisted : tx ∈ if 4 ≤ n then [configTx] else [] := htx
  rw [happlied]
  split_ifs at hlisted
  · exact hlisted
  · exact absurd hlisted (List.not_mem_nil)

/-- Nobody else acts while nothing is moved. -/
theorem assetChain_undisturbed (freeze : Address) {held : ℕ}
    (hmoves : ∀ r u n v, (reconfigureReserve 7 "B").run (creator held) unlimited = (.ok r, u) →
      (holdingToMove r.1 r.2 7 "B").run (creator held) u = (.ok n, v) → n = 0 ∧ 4 ≤ v.moment) :
    (assetChain freeze held).Undisturbed (creator held) 7 "B" unlimited := by
  obtain ⟨u, hrun, hmoment, hsent⟩ :
      ∃ u, (reconfigureReserve 7 "B").run (creator held) unlimited
          = (.ok (assetNode held, account 1), u) ∧ u.moment = 6 ∧ sentSince unlimited u
        = [.asset 7, .suggestedParams, .sendRaw [1], .status, .pendingTransaction "TX"] :=
    ⟨_, rfl, rfl, rfl⟩
  constructor
  · apply assetChain_alone
    rw [hrun, hsent]
    simp
  · intro r v h
    rw [hrun] at h
    cases h
    apply AssetChain.alone_of_quiet (holdingToMove_sends _ _ 7 "B" (creator held) u)
    exact applied_after freeze held (by omega)
  · intro r v n w h hreads
    obtain ⟨rfl, hlate⟩ := hmoves r v n w h hreads
    exact AssetChain.alone_of_quiet (.of_sent rfl) (applied_after freeze held hlate)

end LocalNode

open LocalNode in
/-- Where the creator holds nothing of the asset the reserve is moved. -/
theorem reserve_change_asset7 :
    ∃ t, (changeAssetReserveAddress 7 "B").run (creator 0) unlimited = (.ok (), t) ∧
      ((assetChain .zero 0).state t.moment).ReserveMoved 7 (account 2) := by
  obtain ⟨t, hrun⟩ : ∃ t, (changeAssetReserveAddress 7 "B").run (creator 0) unlimited
      = (.ok (), t) := ⟨_, rfl⟩
  have halone : (assetChain .zero 0).Undisturbed (creator 0) 7 "B" unlimited := by
    apply assetChain_undisturbed
    intro r u n v hfirst hreads
    cases hfirst
    cases hreads
    exact ⟨rfl, by decide⟩
  have hchange := reserve_change_iff (c := creator 0) (assetChain .zero 0)
    (assetChain_truthful .zero (by decide)) assetLibrary_lawful addressText_injective rfl 7 "B"
    unlimited halone
  rw [hrun] at hchange
  obtain ⟨new, hnew, hmoved⟩ := hchange.2 rfl
  have hsame : account 2 = new := Except.ok.inj hnew
  rw [hsame]
  refine ⟨t, hrun, hmoved.mpr ⟨asset7 .zero, rfl, ?_, Or.inr rfl⟩⟩
  exact Or.inr ⟨by decide, by decide⟩

open LocalNode in
/-- Where the creator holds some of it, and the new reserve is not opted in, the change is refused
when the reserve has changed. -/
theorem reserve_changed_though_refused :
    ∃ t, (changeAssetReserveAddress 7 "B").run (creator 5) unlimited = (.err (notOptedIn 7), t) ∧
      (assetChain .zero 5).Truthful ∧ (assetChain .zero 5).Undisturbed (creator 5) 7 "B" unlimited ∧
      ((assetChain .zero 5).state t.moment).assets 7 = some
        { asset7 .zero with reserve := account 2, clawback := account 2 } ∧
      ¬ ((assetChain .zero 5).state unlimited.moment).Unchanged 7
        ((assetChain .zero 5).state t.moment) := by
  obtain ⟨t, hrun, hmoment⟩ : ∃ t, (changeAssetReserveAddress 7 "B").run (creator 5) unlimited
      = (.err (notOptedIn 7), t) ∧ t.moment = 8 := ⟨_, rfl, rfl⟩
  have halone : (assetChain .zero 5).Undisturbed (creator 5) 7 "B" unlimited := by
    apply assetChain_undisturbed
    intro r u n v hfirst hreads
    cases hfirst
    cases hreads
  have hassets : ((assetChain .zero 5).state t.moment).assets 7 = some
      { asset7 .zero with reserve := account 2, clawback := account 2 } := by
    rw [hmoment]
    rfl
  refine ⟨t, hrun, assetChain_truthful .zero (by decide), halone, hassets, ?_⟩
  intro hsame
  have hreserve := congrArg (Option.map AssetParams.reserve) (hassets.symm.trans hsame.1)
  exact absurd hreserve (by decide)

end BlockchainOps.Algo
