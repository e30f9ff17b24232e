import Mathlib.Logic.Function.Basic
import BlockchainOps.Algo.GroupSubmission
import BlockchainOps.Lib.History

/-!
# The ledger behind the node

What the chain keeps of assets: the addresses that an asset names, and who holds how much of it. An
asset configuration replaces all four addresses, and an address that it leaves unset is unset for
good.

`AssetChain` is the chain as the node tells of it. A transaction that a client submits, while it
acts alone, has been applied once its confirmation is awaited (`AssetChain.applied_of_submit`).
-/

namespace BlockchainOps.Algo

open Effect Proc Ledger

/-! ## Assets and holdings -/

/-- The address that stands for none. -/
def Address.zero : Address := ⟨.replicate 32 0⟩

/-- What an asset configuration makes of an address. -/
def Address.replaced (old : Address) (named : Option Address) : Address :=
  if old = .zero then .zero else named.getD .zero

/-- The addresses of an asset. -/
structure AssetParams where
  creator : Address
  manager : Address
  reserve : Address
  freeze : Address
  clawback : Address
deriving DecidableEq

def AssetParams.reconfigured (p : AssetParams) (named : AssetAddresses) : AssetParams where
  creator := p.creator
  manager := p.manager.replaced named.manager
  reserve := p.reserve.replaced named.reserve
  freeze := p.freeze.replaced named.freeze
  clawback := p.clawback.replaced named.clawback

/-- The assets, and what each account that is opted in to one holds of it. -/
structure AssetLedger where
  assets : ℕ → Option AssetParams
  holdings : Address → ℕ → Option ℕ

namespace AssetLedger

/-- What an account holds of an asset. -/
def amount (l : AssetLedger) (account : Address) (assetId : ℕ) : ℕ :=
  (l.holdings account assetId).getD 0

/-- The ledger with another asset. -/
def configure (l : AssetLedger) (assetId : ℕ) (p : AssetParams) : AssetLedger :=
  { l with assets := Function.update l.assets assetId (some p) }

/-- The ledger with another holding. -/
def hold (l : AssetLedger) (account : Address) (assetId held : ℕ) : AssetLedger where
  assets := l.assets
  holdings := Function.update l.holdings account
    (Function.update (l.holdings account) assetId (some held))

/-- Take from the sender, then give to the receiver; both have to be opted in. -/
def transfer (l : AssetLedger) (sender : Address) (assetId moved : ℕ) (receiver : Address) :
    Option AssetLedger :=
  match l.holdings sender assetId, l.holdings receiver assetId with
  | some held, some _ =>
    if moved ≤ held then
      let debited := l.hold sender assetId (held - moved)
      some (debited.hold receiver assetId (debited.amount receiver assetId + moved))
    else none
  | _, _ => none

/-- What a transaction does to the ledger, `none` if it is refused. Only the manager configures an
asset. A transfer of nothing to oneself opts in. Other kinds of transactions leave what is followed
here as it is. -/
def apply (tx : Transaction) (l : AssetLedger) : Option AssetLedger :=
  match tx.kind with
  | .updateAsset assetId named =>
    (l.assets assetId).bind fun p =>
      if p.manager ≠ .zero ∧ p.manager = tx.sender then
        some (l.configure assetId (p.reconfigured named))
      else none
  | .transferAsset assetId moved receiver =>
    if moved = 0 ∧ receiver = tx.sender then
      some (l.hold receiver assetId (l.amount receiver assetId))
    else l.transfer tx.sender assetId moved receiver
  | _ => some l

@[simp] theorem configure_holdings (l : AssetLedger) (assetId : ℕ) (p : AssetParams) :
    (l.configure assetId p).holdings = l.holdings := rfl

@[simp] theorem configure_assets (l : AssetLedger) (assetId : ℕ) (p : AssetParams) :
    (l.configure assetId p).assets = Function.update l.assets assetId (some p) := rfl

@[simp] theorem hold_assets (l : AssetLedger) (account : Address) (assetId held : ℕ) :
    (l.hold account assetId held).assets = l.assets := rfl

theorem amount_hold (l : AssetLedger) (account account' : Address) (assetId held : ℕ) :
    (l.hold account assetId held).amount account' assetId
      = if account' = account then held else l.amount account' assetId := by
  unfold amount hold
  by_cases h : account' = account
  · rw [h, if_pos rfl]
    simp
  · rw [if_neg h]
    simp [Function.update_of_ne h]

/-- An asset is configured by its manager alone. -/
theorem apply_updateAsset {tx : Transaction} {l l' : AssetLedger} {assetId : ℕ}
    {named : AssetAddresses} (hkind : tx.kind = .updateAsset assetId named)
    (h : apply tx l = some l') :
    ∃ p, l.assets assetId = some p ∧ p.manager ≠ .zero ∧ p.manager = tx.sender ∧
      l' = l.configure assetId (p.reconfigured named) := by
  unfold apply at h
  rw [hkind] at h
  obtain ⟨p, hasset, happly⟩ := Option.bind_eq_some_iff.mp h
  split_ifs at happly with hmanager
  exact ⟨p, hasset, hmanager.1, hmanager.2, (Option.some.inj happly).symm⟩

/-- A transfer leaves the assets alone, and takes what it moves from a sender that is not the
receiver. -/
theorem apply_transferAsset {tx : Transaction} {l l' : AssetLedger} {assetId moved : ℕ}
    {receiver : Address} (hkind : tx.kind = .transferAsset assetId moved receiver)
    (h : apply tx l = some l') :
    l'.assets = l.assets ∧ l'.amount tx.sender assetId
      = if receiver = tx.sender then l.amount tx.sender assetId
        else l.amount tx.sender assetId - moved := by
  unfold apply at h
  rw [hkind] at h
  dsimp only at h
  split_ifs at h with hoptIn
  · rw [← Option.some.inj h, if_pos hoptIn.2, amount_hold, hoptIn.2, if_pos rfl]
    exact ⟨rfl, rfl⟩
  · unfold transfer at h
    rcases hheld : l.holdings tx.sender assetId with _ | held
    · simp [hheld] at h
    rcases hreceived : l.holdings receiver assetId with _ | received
    · simp [hheld, hreceived] at h
    simp only [hheld, hreceived] at h
    split_ifs at h with hcovered
    have hamount : l.amount tx.sender assetId = held := by
      unfold amount
      rw [hheld]
      rfl
    rw [← Option.some.inj h, amount_hold, amount_hold, hamount]
    refine ⟨rfl, ?_⟩
    by_cases hself : receiver = tx.sender
    · rw [if_pos hself, if_pos hself.symm, if_pos hself]
      omega
    · rw [if_neg (Ne.symm hself), amount_hold, if_pos rfl, if_neg hself]

/-- No transaction changes who created an asset. -/
theorem apply_creator (assetId : ℕ) (tx : Transaction) (l l' : AssetLedger)
    (h : apply tx l = some l') :
    (l'.assets assetId).map AssetParams.creator = (l.assets assetId).map AssetParams.creator := by
  rcases hkind : tx.kind with _ | ⟨id, moved, receiver⟩ | _ | ⟨id, named⟩ | _
  case transferAsset => rw [(apply_transferAsset hkind h).1]
  case updateAsset =>
    obtain ⟨p, hasset, -, -, rfl⟩ := apply_updateAsset hkind h
    rw [configure_assets]
    by_cases hid : assetId = id
    · rw [hid, Function.update_self, hasset]
      rfl
    · rw [Function.update_of_ne hid]
  all_goals
    unfold apply at h
    rw [hkind] at h
    rw [Option.some.inj h]

end AssetLedger

/-! ## The chain -/

/-- The chain as the node tells of it. The node answers a submission with the id of the
transaction that it decodes, and reports a confirmation only of a transaction that was applied. -/
structure AssetChain (client : Algod) (library : Algonaut) extends History AssetLedger.apply where
  decode : Bytes → Option Transaction
  idOf : Transaction → String
  decode_toMsgPack : ∀ signed bytes, library.toMsgPack signed = .ok bytes →
    decode bytes = some signed.transaction
  sendRaw : ∀ bytes m after response, client.sendRaw bytes m = .done after (.ok response) →
    ∃ tx, decode bytes = some tx ∧ response.txId = idOf tx
  confirmed : ∀ tx m after p, client.pendingTransaction (idOf tx) m = .done after (.ok p) →
    p.isConfirmed = true → tx ∈ applied m

variable {client : Algod} {library : Algonaut}

/-- The transactions that a request carries. -/
def AssetChain.carried (K : AssetChain client library) : Request → List Transaction
  | .sendRaw bytes => (K.decode bytes).toList
  | .sendTransactions signed => signed.map SignedTransaction.transaction
  | _ => []

/-- A transaction was broadcast between two worlds. -/
def AssetChain.Broadcast (K : AssetChain client library) (s t : World) (tx : Transaction) : Prop :=
  ∃ r ∈ sentSince s t, tx ∈ K.carried r

/-- Between two worlds nobody but the client acts, and each of its transactions is a new one, by
its note. -/
structure AssetChain.Alone (K : AssetChain client library) (s t : World) : Prop where
  own : ∀ tx ∈ K.applied t.moment, tx ∈ K.applied s.moment ∨ K.Broadcast s t tx
  new : ∀ tx, K.Broadcast s t tx → tx ∉ K.applied s.moment

/-- Between two worlds this transaction was submitted, no other one, and it was applied. -/
structure AssetChain.Submitted (K : AssetChain client library) (s t : World) (tx : Transaction) :
    Prop where
  broadcast : K.Broadcast s t tx
  only : s.SendsOnly (fun r => ∀ other ∈ K.carried r, other = tx) t
  applied : tx ∈ K.applied t.moment

namespace AssetChain

variable {K : AssetChain client library} {c : Session} {s t u : World} {tx : Transaction}

theorem carried_of_quiet {r : Request} (h : quiet r) : K.carried r = [] := by
  cases r with
  | sendRaw bytes => exact absurd h (by simp [quiet, Request.broadcasts])
  | sendTransactions signed => exact absurd h (by simp [quiet, Request.broadcasts])
  | _ => rfl

/-- Whatever transaction is looked for, no other one is carried. -/
theorem carries_none (h : s.SendsOnly quiet t) (tx : Transaction) :
    s.SendsOnly (fun r => ∀ other ∈ K.carried r, other = tx) t := by
  apply h.mono
  intro r hr other hother
  rw [carried_of_quiet hr] at hother
  exact absurd hother (by simp)

/-- What no request carries is not broadcast. -/
theorem not_broadcast_of_quiet (h : s.SendsOnly quiet t) (tx : Transaction) :
    ¬ K.Broadcast s t tx := by
  rintro ⟨r, hsent, hcarried⟩
  rw [carried_of_quiet (h.sentSince r hsent)] at hcarried
  exact absurd hcarried (by simp)

/-- While nothing is submitted the ledger stays as it is. -/
theorem state_of_quiet (hquiet : s.SendsOnly quiet t) (halone : K.Alone s t) {m : ℕ}
    (hfrom : s.moment ≤ m) (hto : m ≤ t.moment) : K.state m = K.state s.moment := by
  apply K.state_eq_of_none_applied hfrom
  intro tx htx
  have hlast := K.mem_of_le hto htx
  exact (halone.own tx hlast).resolve_right (not_broadcast_of_quiet hquiet tx)

/-- Nobody acts where nothing new is applied. -/
theorem alone_of_quiet (hquiet : s.SendsOnly quiet t)
    (hsame : ∀ tx ∈ K.applied t.moment, tx ∈ K.applied s.moment) : K.Alone s t where
  own tx htx := Or.inl (hsame tx htx)
  new tx hbroadcast := absurd hbroadcast (not_broadcast_of_quiet hquiet tx)

/-- A transaction that is submitted does to the ledger what it does. -/
theorem Submitted.apply_eq (h : K.Submitted s t tx) (halone : K.Alone s t) :
    AssetLedger.apply tx (K.state s.moment) = some (K.state t.moment) := by
  apply K.apply_of_one_applied h.applied (halone.new tx h.broadcast)
  intro other hother
  apply (halone.own other hother).imp_right
  rintro ⟨r, hsent, hcarried⟩
  exact h.only.sentSince r hsent other hcarried

/-- Nothing else is submitted before. -/
theorem Submitted.after_quiet (hquiet : s.SendsOnly quiet u) (h : K.Submitted u t tx) :
    K.Submitted s t tx where
  broadcast := by
    obtain ⟨r, hsent, hcarried⟩ := h.broadcast
    exact ⟨r, (mem_sentSince_iff hquiet h.only r).mpr (Or.inr hsent), hcarried⟩
  only := IsTrans.trans s u t (carries_none hquiet tx) h.only
  applied := h.applied

end AssetChain

/-! ## A submission -/

/-- The node reported a confirmation just before this world. -/
def ReadConfirmed (client : Algod) (txId : String) (t : World) : Prop :=
  ∃ after p, client.pendingTransaction txId (t.moment - 1) = .done after (.ok p) ∧
    p.isConfirmed = true

variable {c : Session} {s t : World}

theorem awaitRound_ok {currentRound : ℕ} {r : ℕ ⊕ Unit}
    (h : (awaitRound client currentRound).run c s = (.ok r, t)) : r = .inl (currentRound + 1) := by
  obtain ⟨_, u, -, hnext⟩ := bind_ok_iff.mp h
  exact (Outcome.ok.inj (congrArg Prod.fst hnext)).symm

/-- A wait is over where a read finds the transaction confirmed. -/
theorem confirmationStep_done {txId : String} {timeoutRounds endRound currentRound : ℕ}
    (h : (confirmationStep client txId timeoutRounds endRound currentRound).run c s
      = (.ok (.inr ()), t)) : ReadConfirmed client txId t := by
  obtain ⟨-, h⟩ := guard_ok h
  obtain ⟨result, u, hread, hafter⟩ := bind_ok_iff.mp h
  have hattempt : Proc.attempt ((algodCall (client.pendingTransactionCall txId)).run c) s
      = ((.ok result, u) : Outcome Error _ × World) := hread
  unfold Proc.attempt at hattempt
  rcases hrun : (algodCall (client.pendingTransactionCall txId)).run c s with ⟨p | e | w, v⟩ <;>
    rw [hrun] at hattempt
  · obtain ⟨rfl, rfl⟩ : .ok p = result ∧ v = u := by simpa using hattempt
    dsimp only at hafter
    split_ifs at hafter with hconfirmed hpool
    · have hsame : v = t := congrArg Prod.snd hafter
      rw [← hsame]
      obtain ⟨after, hsettled⟩ := (algodCall_ok rfl hrun).settled
      exact ⟨after, p, hsettled, hconfirmed⟩
    · exact absurd (congrArg Prod.fst hafter) (by rintro ⟨⟩)
    · exact absurd (awaitRound_ok hafter) (by simp)
  · obtain ⟨rfl, rfl⟩ : .error e = result ∧ v = u := by simpa using hattempt
    dsimp only at hafter
    split_ifs at hafter
    · exact absurd (congrArg Prod.fst hafter) (by rintro ⟨⟩)
    · exact absurd (awaitRound_ok hafter) (by simp)
  · exact absurd (congrArg Prod.fst hattempt) (by rintro ⟨⟩)

/-- The last read of a wait that returns found the transaction confirmed. -/
theorem waitForConfirmation_ok {txId : String} {timeoutRounds : ℕ} (hclient : c.algod = .ok client)
    (h : (waitForConfirmation txId timeoutRounds).run c s = (.ok (), t)) :
    ReadConfirmed client txId t := by
  obtain ⟨-, h⟩ := guard_ok h
  obtain ⟨client', u₁, hclient', h⟩ := bind_ok_iff.mp h
  obtain ⟨status, u₂, -, h⟩ := bind_ok_iff.mp h
  obtain ⟨startRound, u₃, -, h⟩ := bind_ok_iff.mp h
  obtain ⟨endRound, u₄, -, h⟩ := bind_ok_iff.mp h
  have hsame : client' = client := Except.ok.inj ((algodClient_ok hclient').symm.trans hclient)
  rw [hsame] at h
  have hloop : Proc.loop (fun g => (confirmationStep client txId timeoutRounds endRound g).run c)
      (timeoutRounds + 1) startRound u₄ = (.ok (), t) := h
  obtain ⟨currentRound, v, hround⟩ := loop_ok_round (timeoutRounds + 1) startRound u₄ hloop
  exact confirmationStep_done hround

/-- How a submission that returns went. -/
theorem submit_ok {failure txId : String} {seed : Wire.Field 32} {tx : Transaction}
    (h : (submit client failure seed tx).run c s = (.ok txId, t)) :
    ∃ signed bytes response u, c.env.algonaut.sign seed tx = .ok signed ∧
      c.env.algonaut.toMsgPack signed = .ok bytes ∧
      (context "send_raw failed" (algodCall (client.sendRawCall bytes))).run c s
        = (.ok response, u) ∧
      (waitForConfirmation response.txId 10).run c u = (.ok (), t) := by
  obtain ⟨env, u₁, henv, hrest₁⟩ := bind_ok_iff.mp h
  obtain ⟨signed, u₂, hsign, hrest₂⟩ := bind_ok_iff.mp hrest₁
  obtain ⟨env', u₃, henv', hrest₃⟩ := bind_ok_iff.mp hrest₂
  obtain ⟨bytes, u₄, hbytes, hrest₄⟩ := bind_ok_iff.mp hrest₃
  obtain ⟨response, u₅, hcall, hrest₅⟩ := bind_ok_iff.mp hrest₄
  obtain ⟨_, u₆, hwait, hlast⟩ := bind_ok_iff.mp hrest₅
  cases henv
  obtain ⟨hsigned, rfl⟩ := orBail_ok_iff.mp hsign
  cases henv'
  obtain ⟨hencoded, rfl⟩ := orBail_ok_iff.mp hbytes
  cases hlast
  exact ⟨signed, bytes, response, u₅, hsigned, hencoded, hcall, hwait⟩

/-- A submission that returns has submitted its transaction, which was applied. -/
theorem AssetChain.submit_submitted (K : AssetChain client c.env.algonaut)
    (hlaws : c.env.algonaut.Lawful) (hclient : c.algod = .ok client) {failure txId : String}
    {seed : Wire.Field 32} {tx : Transaction}
    (h : (submit client failure seed tx).run c s = (.ok txId, t)) : K.Submitted s t tx := by
  obtain ⟨signed, bytes, response, u, hsigned, hencoded, hcall, hwait⟩ := submit_ok h
  -- what is broadcast is the transaction, and the answer names it
  have hdecoded : K.decode bytes = some tx := by
    rw [K.decode_toMsgPack signed bytes hencoded, hlaws.sign seed tx signed hsigned]
  have hcarried : K.carried (.sendRaw bytes) = [tx] := by
    show (K.decode bytes).toList = [tx]
    rw [hdecoded]
    rfl
  obtain ⟨after, hsettled⟩ := (context_ok rfl hcall).settled
  obtain ⟨tx', hdecoded', hid⟩ := K.sendRaw _ _ _ _ hsettled
  have hnamed : response.txId = K.idOf tx := by
    rw [hid, Option.some.inj (hdecoded'.symm.trans hdecoded)]
  obtain ⟨after', p, hread, hconfirmed⟩ := waitForConfirmation_ok hclient hwait
  rw [hnamed] at hread
  obtain ⟨hsent, honly⟩ := call_sent rfl hcall
  have hquiet : u.SendsOnly quiet t := (waitForConfirmation_sends response.txId 10).of_run hwait
  refine ⟨⟨.sendRaw bytes, ?_, ?_⟩, ?_, ?_⟩
  · exact (mem_sentSince_iff honly hquiet _).mpr (Or.inl hsent)
  · rw [hcarried]
    exact List.mem_singleton_self tx
  · apply IsTrans.trans s u t _ (carries_none hquiet tx)
    apply honly.mono
    intro r hr other hother
    have hraw : r = .sendRaw bytes := hr
    rw [hraw, hcarried] at hother
    exact List.mem_singleton.mp hother
  · exact K.mem_of_le (Nat.sub_le _ 1) (K.confirmed tx _ _ p hread hconfirmed)

/-- Nothing is submitted while the transaction is built. -/
theorem AssetChain.built_submitted {α : Type} (K : AssetChain client c.env.algonaut)
    (hlaws : c.env.algonaut.Lawful) (hclient : c.algod = .ok client) {x : Client α} {a : α}
    {u : World} {failure txId : String} {seed : Wire.Field 32} {tx : Transaction}
    (hx : Sends quiet x)
    (hbuilt : x.run c s = (.ok a, u))
    (hsubmit : (submit client failure seed tx).run c u = (.ok txId, t)) : K.Submitted s t tx :=
  (K.submit_submitted hlaws hclient hsubmit).after_quiet (hx.of_run hbuilt)

end BlockchainOps.Algo
