import BlockchainOps.Algo.Confirmation
import BlockchainOps.Algo.GroupCalls
import BlockchainOps.Algo.SentRequests

/-!
# Submitting a group

A group is submitted by one request, which carries a signed transaction for each leg that was asked
for, and which is made only after every leg was built and signed. A misuse of the builder is
reported without a request (`group_submitted`).
-/

namespace BlockchainOps.Algo

open Effect Proc

variable {α : Type} {c : Session} {s t : World} {P : Request → Prop}

/-! ## What the parts send -/

/-- A request that broadcasts transactions. -/
def Request.broadcasts : Request → Bool
  | .sendRaw _ | .sendTransactions _ => true
  | _ => false

/-- Every request but a broadcast. -/
def quiet (r : Request) : Prop := r.broadcasts = false

theorem call_sends (what : String) {call : NodeCall α} (hreply : call.reply = replyOf)
    (h : call.request.broadcasts = false) : Sends quiet (context what (algodCall call)) :=
  .context what (.algodCall call hreply h)

theorem env_local : Local env := Local.read _

theorem buildWithFee_sends (failure : String) (sender : Address) (kind : TransactionKind)
    (fee : Option ℕ) (params : SuggestedParams) :
    Sends P (buildWithFee failure sender kind fee params) := by
  apply Sends.bind
  · exact (Sends.ask _).bind fun _ => .of_local (Local.pure _)
  · intro note
    exact .of_local (env_local.bind fun _ => .orBail _ _)

theorem paramsFor_sends (client : Algod) : Sends quiet (paramsFor client) :=
  call_sends _ rfl rfl

theorem cacheAppCreator_sends (appId : ℕ) (creator : String) :
    Sends P (cacheAppCreator appId creator) := by
  intro c w
  apply World.SendsOnly.of_sent
  show (if w.appCreators.poisoned then _ else _ : Outcome Error Unit × World).2.sent = w.sent
  split_ifs <;> rfl

theorem appCreator_sends (appId : ℕ) : Sends quiet (appCreator appId) := by
  apply Sends.guard
  apply Sends.bind (.of_local (Local.read _))
  intro cached
  cases cached with
  | some creator => exact .of_local (Local.pure _)
  | none =>
    apply Sends.bind
    · apply Sends.bind (.of_local algodClient_local)
      intro client
      apply Sends.bind (call_sends _ rfl rfl)
      intro info
      exact .of_local ((Local.orBail _ _).bind fun _ => .require _ _)
    · intro creator
      exact (cacheAppCreator_sends appId creator).bind fun _ => .of_local (Local.pure _)

theorem buildCallAppTxInner_sends (appId : ℕ) (assetId : Option ℕ) (foreignAppIds : List ℕ)
    (extraAccounts : List Address) (method : Option String) (args : List AppArg) :
    Sends quiet (buildCallAppTxInner appId assetId foreignAppIds extraAccounts method args) := by
  apply Sends.guard
  apply Sends.bind (appCreator_sends appId)
  intro creatorText
  apply Sends.bind (.of_local (parseAddress_local creatorText))
  intro creator
  apply Sends.bind (.of_local requireAddress_local)
  intro sender
  apply Sends.bind (.of_local algodClient_local)
  intro client
  apply Sends.bind (.of_local (env_local.bind fun _ => Local.pure _))
  intro appArgs
  apply Sends.bind (paramsFor_sends client)
  intro params
  apply Sends.bind (buildWithFee_sends _ _ _ _ _)
  intro txZeroFee
  apply Sends.bind (.of_local env_local)
  intro env
  apply Sends.bind (.of_local (.orBail _ _))
  intro estSize
  apply Sends.bind (.ofOutcome _)
  intro estFee
  exact buildWithFee_sends _ _ _ _ _

theorem awaitRound_sends (client : Algod) (currentRound : ℕ) :
    Sends quiet (awaitRound client currentRound) :=
  (call_sends _ rfl rfl).bind fun _ => .of_local (Local.pure _)

theorem waitForConfirmation_sends (txId : String) (timeoutRounds : ℕ) :
    Sends quiet (waitForConfirmation txId timeoutRounds) := by
  apply Sends.guard
  apply Sends.bind (.of_local algodClient_local)
  intro client
  apply Sends.bind (call_sends _ rfl rfl)
  intro status
  apply Sends.bind (.ofOutcome _)
  intro startRound
  apply Sends.bind (.ofOutcome _)
  intro endRound
  apply Sends.loop
  intro currentRound
  apply Sends.guard
  have hread : Sends quiet (resultOf (algodCall (client.pendingTransactionCall txId))) :=
    .resultOf (.algodCall _ rfl rfl)
  apply Sends.bind hread
  intro result
  cases result with
  | ok p =>
    dsimp only
    split_ifs
    · exact .of_local (Local.pure _)
    · exact .of_local (Local.bail _)
    · exact awaitRound_sends client currentRound
  | error e =>
    dsimp only
    split_ifs
    · exact .raise _
    · exact awaitRound_sends client currentRound

theorem buildLeg_sends (sender : Address) (params : SuggestedParams) (leg : GroupLeg) :
    Sends quiet (TransactionGroupBuilder.buildLeg sender params leg) := by
  cases leg with
  | payment toAddress microAlgos =>
    apply Sends.bind (.of_local (parseAddress_local toAddress))
    intro receiver
    exact buildWithFee_sends _ _ _ _ _
  | assetTransfer assetId amount toAddress =>
    apply Sends.bind (.of_local (parseAddress_local toAddress))
    intro receiver
    exact buildWithFee_sends _ _ _ _ _
  | appCall appId method args foreignAsset foreignApp => exact buildCallAppTxInner_sends _ _ _ _ _ _

/-! ## What is built and signed -/

/-- The documented behaviour of the library's builders, of its groups and of its signatures. -/
structure Algonaut.Lawful (library : Algonaut) : Prop where
  build : ∀ b params tx, library.build b params = .ok tx → tx.sender = b.sender ∧ tx.kind = b.kind
  /-- Only the group is set, the same one in every transaction. -/
  assignGroup : ∀ txns group, library.assignGroup txns = .ok group →
    ∃ id, group = txns.map fun tx => { tx with group := some id }
  sign : ∀ seed tx signed, library.sign seed tx = .ok signed → signed.transaction = tx

/-- What a leg asks a transaction to do. -/
def GroupLeg.Asks (env : Env) : GroupLeg → TransactionKind → Prop
  | .payment toAddress microAlgos, kind =>
    ∃ receiver, env.algonaut.parseAddress toAddress = .ok receiver ∧ kind = .pay receiver microAlgos
  | .assetTransfer assetId amount toAddress, kind =>
    ∃ receiver, env.algonaut.parseAddress toAddress = .ok receiver ∧
      kind = .transferAsset assetId amount receiver
  | .appCall appId method args foreignAsset foreignApp, kind =>
    ∃ accounts, kind = .callApplication appId accounts
      ((method.map (arc4Selector env.keys)).toList ++ args.map AppArg.toBytes)
      (foreignAsset.map fun id => [id]) (foreignApp.map fun id => [id])

/-- The transaction carries out the leg. -/
structure GroupLeg.CarriedBy (env : Env) (sender : Address) (leg : GroupLeg) (tx : Transaction) :
    Prop where
  sender : tx.sender = sender
  asks : leg.Asks env tx.kind

theorem orBail_ok_iff {what : String} {r : Except String α} {a : α} :
    (orBail what r).run c s = (.ok a, t) ↔ r = .ok a ∧ t = s := by
  cases r with
  | error e =>
    constructor
    · intro h
      exact absurd (congrArg Prod.fst h) (by rintro ⟨⟩)
    · intro h
      exact absurd h.1 (by rintro ⟨⟩)
  | ok a' =>
    constructor
    · intro h
      cases h
      exact ⟨rfl, rfl⟩
    · rintro ⟨⟨⟩, rfl⟩
      rfl

theorem require_ok {message : String} {o : Option α} {a : α}
    (h : (require message o).run c s = (.ok a, t)) : o = some a := by
  cases o with
  | none => exact absurd (congrArg Prod.fst h) (by rintro ⟨⟩)
  | some a' => rw [Outcome.ok.inj (congrArg Prod.fst h)]

/-- A program that returns has passed its guard. -/
theorem guard_ok {p : Prop} [Decidable p] {message : String} {rest : Unit → Client α} {a : α}
    (h : (if p then bail message >>= rest else rest ()).run c s = (.ok a, t)) :
    ¬ p ∧ (rest ()).run c s = (.ok a, t) := by
  split_ifs at h with hp
  · exact absurd (congrArg Prod.fst h) (by rintro ⟨⟩)
  · exact ⟨hp, h⟩

theorem parseAddress_ok {address : String} {a : Address}
    (h : (parseAddress address).run c s = (.ok a, t)) :
    c.env.algonaut.parseAddress address = .ok a :=
  (orBail_ok_iff.mp h).1

/-- What is built has a note of 16 bytes. -/
theorem buildWithFee_ok {failure : String} {sender : Address} {kind : TransactionKind}
    {fee : Option ℕ} {params : SuggestedParams} {tx : Transaction}
    (h : (buildWithFee failure sender kind fee params).run c s = (.ok tx, t)) :
    ∃ note, note.length = 16 ∧ c.env.algonaut.build { sender, kind, fee, note } params = .ok tx := by
  obtain ⟨note, u, hnote, hbuild⟩ := bind_ok_iff.mp h
  obtain ⟨id, v, -, hid⟩ := bind_ok_iff.mp hnote
  have hlength : note.length = 16 := by
    rw [← Outcome.ok.inj (congrArg Prod.fst hid)]
    exact id.2
  exact ⟨note, hlength, (orBail_ok_iff.mp hbuild).1⟩

/-- The client has a signing key, and an address. -/
structure Session.Signs (c : Session) (seed : Wire.Field 32) (sender : Address) : Prop where
  key : c.ops.privateKeyBytes c.env.keys = .ok seed
  address : ∃ text, c.ops.address = some text ∧ c.env.algonaut.parseAddress text = .ok sender

variable {seed : Wire.Field 32} {sender : Address}

theorem Session.Signs.privateKeyBytes_run (h : c.Signs seed sender) (s : World) :
    privateKeyBytes.run c s = (.ok seed, s) := by
  show ofExcept (c.ops.privateKeyBytes c.env.keys) s = _
  rw [h.key]
  rfl

theorem Session.Signs.requireAddress_run (h : c.Signs seed sender) (s : World) :
    requireAddress.run c s = (.ok sender, s) := by
  obtain ⟨text, hsome, hparsed⟩ := h.address
  have haddress : addressStr.run c s = (.ok text, s) := by
    show (Algo.require "This operation needs an address" c.ops.address).run c s = _
    rw [hsome]
    rfl
  have hparse : (parseAddress text).run c s = (.ok sender, s) := by
    show (orBail "invalid address" (c.env.algonaut.parseAddress text)).run c s = _
    rw [hparsed]
    rfl
  show (addressStr.run c >>= fun text => (parseAddress text).run c) s = _
  rw [bind_of_ok haddress, hparse]

theorem requireAddress_ok (h : requireAddress.run c s = (.ok sender, t)) :
    ∃ text, c.ops.address = some text ∧ c.env.algonaut.parseAddress text = .ok sender := by
  obtain ⟨text, u, htext, h⟩ := bind_ok_iff.mp h
  have hrequired : (Algo.require "This operation needs an address" c.ops.address).run c s
      = (.ok text, u) := htext
  exact ⟨text, require_ok hrequired, parseAddress_ok h⟩

/-- The algod a session talks to. -/
def Session.algod (c : Session) : Except String Algod :=
  c.env.newAlgod s!"{c.ops.config.clientApiUrl}:{c.ops.config.clientApiPort}"
    (c.ops.config.token.getD "")

theorem algodClient_ok {client : Algod} (h : algodClient.run c s = (.ok client, t)) :
    c.algod = .ok client :=
  (orBail_ok_iff.mp h).1

/-- The node suggested these parameters at some moment. -/
def Session.Suggested (c : Session) (params : SuggestedParams) : Prop :=
  ∃ client moment after, c.algod = .ok client ∧
    client.suggestedParams moment = .done after (.ok params)

theorem paramsFor_ok {client : Algod} {params : SuggestedParams} (hclient : c.algod = .ok client)
    (h : (paramsFor client).run c s = (.ok params, t)) : c.Suggested params := by
  have hrun : (context "failed to fetch suggested params"
      (algodCall client.suggestedParamsCall)).run c s = (.ok params, t) := h
  obtain ⟨after, hsettled⟩ := (context_ok rfl hrun).settled
  exact ⟨client, t.moment - 1, after, hclient, hsettled⟩

/-- What a call of an application asks for. -/
def callKind (keys : KeyPrims) (appId : ℕ) (assetId : Option ℕ) (foreignAppIds : List ℕ)
    (accounts : List Address) (method : Option String) (args : List AppArg) : TransactionKind :=
  .callApplication appId accounts ((method.map (arc4Selector keys)).toList ++ args.map AppArg.toBytes)
    (assetId.map fun aid => [aid]) (if foreignAppIds.isEmpty then none else some foreignAppIds)

/-- How a call that is returned was built: once without a fee, which gives it a size, and once with
the fee for this size. -/
structure BuiltCall (library : Algonaut) (sender : Address) (kind : TransactionKind)
    (params : SuggestedParams) (size : ℕ) (tx : Transaction) : Prop where
  measured : ∃ note withoutFee, note.length = 16 ∧
    library.build ⟨sender, kind, some 0, note⟩ params = .ok withoutFee ∧
    library.estimateBasicSigSize withoutFee = .ok size
  built : ∃ note, note.length = 16 ∧
    library.build ⟨sender, kind, some (max (params.fee * size) params.minFee), note⟩ params = .ok tx

theorem estimateFee_ok {params : SuggestedParams} {size fee : ℕ}
    (h : (estimateFee params size).run c s = (.ok fee, t)) :
    fee = max (params.fee * size) params.minFee := by
  have hrun : ofOutcome (if params.fee * size < 2 ^ 64 then
      .ok (max (params.fee * size) params.minFee) else .stop .panic) s
        = ((.ok fee, t) : Outcome Error ℕ × World) := h
  have hfee := congrArg Prod.fst hrun
  rw [ofOutcome] at hfee
  split_ifs at hfee with hfits
  exact (Outcome.ok.inj hfee).symm

/-- A call that is returned is from the handle's address, lists the application's creator last, and
was built with parameters that the node suggested. -/
theorem buildCallAppTxInner_built {appId : ℕ} {assetId : Option ℕ} {foreignAppIds : List ℕ}
    {extraAccounts : List Address} {method : Option String} {args : List AppArg} {tx : Transaction}
    (h : (buildCallAppTxInner appId assetId foreignAppIds extraAccounts method args).run c s
      = (.ok tx, t)) :
    ∃ sender creator params size,
      (∃ text, c.ops.address = some text ∧ c.env.algonaut.parseAddress text = .ok sender) ∧
      c.Suggested params ∧
      BuiltCall c.env.algonaut sender (callKind c.env.keys appId assetId foreignAppIds
        (extraAccounts ++ [creator]) method args) params size tx := by
  -- one step of the source after the other, down to the two builds
  obtain ⟨-, h⟩ := guard_ok h
  obtain ⟨creatorText, u₁, -, h⟩ := bind_ok_iff.mp h
  obtain ⟨creator, u₂, -, h⟩ := bind_ok_iff.mp h
  obtain ⟨sender, u₃, hsender, h⟩ := bind_ok_iff.mp h
  obtain ⟨client, u₄, hclient, h⟩ := bind_ok_iff.mp h
  obtain ⟨appArgs, u₅, hargs, h⟩ := bind_ok_iff.mp h
  obtain ⟨params, u₆, hparams, h⟩ := bind_ok_iff.mp h
  obtain ⟨withoutFee, u₇, hwithout, h⟩ := bind_ok_iff.mp h
  obtain ⟨env', u₈, henv, h⟩ := bind_ok_iff.mp h
  obtain ⟨size, u₉, hsize, h⟩ := bind_ok_iff.mp h
  obtain ⟨fee, u₁₀, hfee, h⟩ := bind_ok_iff.mp h
  have happArgs : appArgs = (method.map (arc4Selector c.env.keys)).toList
      ++ args.map AppArg.toBytes := (Outcome.ok.inj (congrArg Prod.fst hargs)).symm
  have henv' : env' = c.env := (Outcome.ok.inj (congrArg Prod.fst henv)).symm
  rw [henv'] at hsize
  rw [happArgs] at hwithout h
  rw [estimateFee_ok hfee] at h
  obtain ⟨note, hnote, hmeasured⟩ := buildWithFee_ok hwithout
  exact ⟨sender, creator, params, size, requireAddress_ok hsender,
    paramsFor_ok (algodClient_ok hclient) hparams,
    ⟨note, withoutFee, hnote, hmeasured, (orBail_ok_iff.mp hsize).1⟩, buildWithFee_ok h⟩

theorem buildCallAppTxInner_ok (hlaws : c.env.algonaut.Lawful) (hsigns : c.Signs seed sender)
    {appId : ℕ} {method : Option String} {args : List AppArg} {foreignAsset foreignApp : Option ℕ}
    {tx : Transaction}
    (h : (buildCallAppTxInner appId foreignAsset foreignApp.toList [] method args).run c s
      = (.ok tx, t)) :
    (GroupLeg.appCall appId method args foreignAsset foreignApp).CarriedBy c.env sender tx := by
  obtain ⟨sender', creator, params, size, ⟨text, htext, hparsed⟩, -, -, note, -, hbuilt⟩ :=
    buildCallAppTxInner_built h
  obtain ⟨text', htext', hparsed'⟩ := hsigns.address
  have hsame : sender' = sender := by
    rw [Option.some.inj (htext.symm.trans htext'), hparsed'] at hparsed
    exact (Except.ok.inj hparsed).symm
  obtain ⟨hfrom, hkind⟩ := hlaws.build _ _ _ hbuilt
  refine ⟨hfrom.trans hsame, [creator], ?_⟩
  rw [hkind]
  cases foreignApp with
  | none => rfl
  | some id => rfl

/-- A leg that is built is carried out by its transaction. -/
theorem buildLeg_ok (hlaws : c.env.algonaut.Lawful) (hsigns : c.Signs seed sender)
    {params : SuggestedParams} {leg : GroupLeg} {tx : Transaction}
    (h : (TransactionGroupBuilder.buildLeg sender params leg).run c s = (.ok tx, t)) :
    leg.CarriedBy c.env sender tx := by
  cases leg with
  | payment toAddress microAlgos =>
    obtain ⟨receiver, u, hreceiver, h⟩ := bind_ok_iff.mp h
    obtain ⟨note, -, hbuilt⟩ := buildWithFee_ok h
    obtain ⟨hfrom, hkind⟩ := hlaws.build _ _ _ hbuilt
    exact ⟨hfrom, receiver, parseAddress_ok hreceiver, hkind⟩
  | assetTransfer assetId amount toAddress =>
    obtain ⟨receiver, u, hreceiver, h⟩ := bind_ok_iff.mp h
    obtain ⟨note, -, hbuilt⟩ := buildWithFee_ok h
    obtain ⟨hfrom, hkind⟩ := hlaws.build _ _ _ hbuilt
    exact ⟨hfrom, receiver, parseAddress_ok hreceiver, hkind⟩
  | appCall appId method args foreignAsset foreignApp =>
    exact buildCallAppTxInner_ok hlaws hsigns h

/-- A traversal that returns has one result for each element. -/
theorem forEach_ok {β : Type} {f : α → Client β} {R : α → β → Prop}
    (hf : ∀ a s b t, (f a).run c s = (.ok b, t) → R a b) {as : List α} {bs : List β}
    (h : (Confined.forEach f as).run c s = (.ok bs, t)) : List.Forall₂ R as bs := by
  have hpairs : Triple (fun _ => True) (Proc.forEach (fun a => (f a).run c) as)
      (fun bs _ => True ∧ List.Forall₂ R as bs) (fun _ _ => True) := by
    apply Triple.forEach_pairs
    intro a _ s _
    rcases hrun : (f a).run c s with ⟨b | e | w, t⟩
    · exact ⟨trivial, hf a s b t hrun⟩
    · trivial
    · trivial
  exact (hpairs.of_ok trivial h).2

/-! ## Building, signing, submitting -/

/-- The first part of `signAndSend`: build, group and sign the legs. -/
def signGroup (legs : List GroupLeg) (client : Algod) (seed : Wire.Field 32) (sender : Address) :
    Client (List SignedTransaction) := do
  let params ← paramsFor client
  let txns ← Confined.forEach (TransactionGroupBuilder.buildLeg sender params) legs
  let library := (← env).algonaut
  let group ← orBail "failed to assign group id" (library.assignGroup txns)
  Confined.forEach (fun tx => orBail "failed to sign grouped transaction" (library.sign seed tx))
    group

/-- The second part: broadcast the group and wait for its confirmation. -/
def broadcastGroup (client : Algod) (signed : List SignedTransaction) : Client String := do
  let response ← context "failed to broadcast transaction group"
    (algodCall (client.sendTransactionsCall signed))
  waitForConfirmation response.txId 10
  pure response.txId

/-- What is submitted for the legs: one transaction for each, in order, that carries it out, is
signed, and is in the group of the others. -/
structure SubmittedFor (c : Session) (seed : Wire.Field 32) (sender : Address)
    (legs : List GroupLeg) (signed : List SignedTransaction) : Prop where
  carried : List.Forall₂ (fun leg stx => leg.CarriedBy c.env sender stx.transaction) legs signed
  signature : ∀ stx ∈ signed, c.env.algonaut.sign seed stx.transaction = .ok stx
  grouped : ∃ id, ∀ stx ∈ signed, stx.transaction.group = some id

theorem signGroup_sends (legs : List GroupLeg) (client : Algod) (seed : Wire.Field 32)
    (sender : Address) : Sends quiet (signGroup legs client seed sender) := by
  apply Sends.bind (paramsFor_sends client)
  intro params
  apply Sends.bind (.forEach (buildLeg_sends sender params) legs)
  intro txns
  apply Sends.bind (.of_local env_local)
  intro env
  apply Sends.bind (.of_local (.orBail _ _))
  intro group
  exact .forEach (fun tx => .of_local (.orBail _ _)) group

/-- What is signed is the group. -/
theorem signed_group {library : Algonaut} (hlaws : library.Lawful) {group : List Transaction}
    {signed : List SignedTransaction}
    (h : List.Forall₂ (fun tx stx => library.sign seed tx = .ok stx) group signed) :
    group = signed.map SignedTransaction.transaction ∧
      ∀ stx ∈ signed, library.sign seed stx.transaction = .ok stx := by
  induction h with
  | nil => exact ⟨rfl, by simp⟩
  | @cons tx stx group signed hsign _ ih =>
    obtain ⟨rfl, hall⟩ := ih
    have htx := hlaws.sign seed tx stx hsign
    refine ⟨by rw [List.map_cons, htx], ?_⟩
    intro stx' hstx
    rcases List.mem_cons.mp hstx with rfl | hmem
    · rw [htx]
      exact hsign
    · exact hall stx' hmem

/-- All legs were built and signed where the first part returns. -/
theorem signGroup_ok (hlaws : c.env.algonaut.Lawful) (hsigns : c.Signs seed sender)
    {legs : List GroupLeg} {client : Algod} {signed : List SignedTransaction}
    (h : (signGroup legs client seed sender).run c s = (.ok signed, t)) :
    SubmittedFor c seed sender legs signed := by
  obtain ⟨params, u₁, -, h⟩ := bind_ok_iff.mp h
  obtain ⟨txns, u₂, hbuilt, h⟩ := bind_ok_iff.mp h
  obtain ⟨env, u₃, henv, h⟩ := bind_ok_iff.mp h
  obtain ⟨group, u₄, hgroup, h⟩ := bind_ok_iff.mp h
  have hsame : env = c.env := (Outcome.ok.inj (congrArg Prod.fst henv)).symm
  rw [hsame] at hgroup h
  -- one transaction for each leg, and one signature for each transaction of the group
  have hlegs : List.Forall₂ (fun leg tx => leg.CarriedBy c.env sender tx) legs txns :=
    forEach_ok (fun leg s tx t => buildLeg_ok hlaws hsigns) hbuilt
  have hsigned : List.Forall₂ (fun tx stx => c.env.algonaut.sign seed tx = .ok stx) group signed :=
    forEach_ok (fun tx s stx t hsign => (orBail_ok_iff.mp hsign).1) h
  obtain ⟨id, hid⟩ := hlaws.assignGroup txns group (orBail_ok_iff.mp hgroup).1
  obtain ⟨hmap, hall⟩ := signed_group hlaws hsigned
  refine ⟨?_, hall, id, ?_⟩
  · rw [← List.forall₂_map_right_iff (R := fun leg tx => GroupLeg.CarriedBy c.env sender leg tx),
      ← hmap, hid, List.forall₂_map_right_iff]
    exact hlegs.imp fun leg tx hcarried => ⟨hcarried.sender, hcarried.asks⟩
  · intro stx hstx
    have hmem := List.mem_map_of_mem (f := SignedTransaction.transaction) hstx
    rw [← hmap, hid] at hmem
    obtain ⟨tx, -, htx⟩ := List.mem_map.mp hmem
    rw [← htx]

theorem broadcastGroup_sends (client : Algod) (signed : List SignedTransaction) :
    Sends (fun r => r.broadcasts = true → r = .sendTransactions signed)
      (broadcastGroup client signed) := by
  apply Sends.bind
  · exact .context _ (.algodCall _ rfl fun _ => rfl)
  · intro response
    have hquiet : Sends quiet (waitForConfirmation response.txId 10 >>= fun _ =>
        pure response.txId) :=
      (waitForConfirmation_sends _ _).bind fun _ => .of_local (Local.pure _)
    intro c w
    apply (hquiet c w).mono
    intro r hr hbroadcast
    rw [hr] at hbroadcast
    exact absurd hbroadcast (by simp)

/-- Where the second part returns, the group was sent. -/
theorem broadcastGroup_sent {client : Algod} {signed : List SignedTransaction} {txId : String}
    (h : (broadcastGroup client signed).run c s = (.ok txId, t)) :
    .sendTransactions signed ∈ sentSince s t := by
  obtain ⟨response, u, hcall, hrest⟩ := bind_ok_iff.mp h
  have hquiet : Sends quiet (waitForConfirmation response.txId 10 >>= fun _ =>
      pure response.txId) :=
    (waitForConfirmation_sends _ _).bind fun _ => .of_local (Local.pure _)
  -- the call has sent the group, and what follows broadcasts nothing
  obtain ⟨hsent, honly⟩ := call_sent rfl hcall
  exact (mem_sentSince_iff honly (hquiet.of_run hrest) _).mpr (Or.inl hsent)

/-! ## The whole of it -/

variable {b : TransactionGroupBuilder}

/-- A misuse is reported before anything is done. -/
theorem signAndSend_of_error {message : String} (herror : b.error = some message) (s : World) :
    b.signAndSend.run c s = (.err (.text message), s) := by
  unfold TransactionGroupBuilder.signAndSend
  rw [herror]
  rfl

theorem signAndSend_of_empty (herror : b.error = none) (hlegs : b.legs = []) (s : World) :
    b.signAndSend.run c s =
      (.err (.text "transaction group must contain at least one transaction"), s) := by
  unfold TransactionGroupBuilder.signAndSend
  rw [herror, hlegs]
  rfl

/-- Otherwise the legs are built and signed, and then submitted. -/
theorem signAndSend_run (hsigns : c.Signs seed sender) (herror : b.error = none)
    (hlegs : b.legs ≠ []) (s : World) :
    b.signAndSend.run c s = (algodClient.run c >>= fun client =>
      (signGroup b.legs client seed sender).run c >>= fun signed =>
        (broadcastGroup client signed).run c) s := by
  unfold TransactionGroupBuilder.signAndSend
  rw [herror, if_neg (by simpa using hlegs)]
  show (privateKeyBytes.run c >>= fun seed => requireAddress.run c >>= fun sender => _) s = _
  -- the key and the address are there, so neither step can fail
  rw [bind_of_ok (hsigns.privateKeyBytes_run s), bind_of_ok (hsigns.requireAddress_run s)]
  unfold signGroup broadcastGroup
  simp only [Confined.run_bind, Proc.bind_assoc]

/-- The client cannot make its first request: there is no client of the node, or the request is
prevented. -/
def Session.CannotAsk (c : Session) (s : World) : Prop :=
  (∃ e, (algodClient.run c s).1 = .err e) ∨ c.Prevents s

/-- What submitting the group of these calls does. -/
structure GroupSubmitted (c : Session) (calls : List BuilderCall) (seed : Wire.Field 32)
    (sender : Address) (s : World) (run : Outcome Error String × World) : Prop where
  failsFirst : ((∃ e, run.1 = .err e) ∧ sentSince s run.2 = []) ↔
    (∃ message, FirstMisuse calls message) ∨ legsOf calls = [] ∨ c.CannotAsk s
  misused : ∀ message, FirstMisuse calls message → run = (.err (.text message), s)
  empty : Proper calls → legsOf calls = [] →
    run = (.err (.text "transaction group must contain at least one transaction"), s)
  /-- Nothing is broadcast, or one group for the legs is. -/
  broadcasts : (∀ r ∈ sentSince s run.2, r.broadcasts = false) ∨
    ∃ signed, SubmittedFor c seed sender (legsOf calls) signed ∧
      .sendTransactions signed ∈ sentSince s run.2 ∧
      ∀ r ∈ sentSince s run.2, r.broadcasts = true → r = .sendTransactions signed
  submitted : ∀ txId, run.1 = .ok txId → ∃ r ∈ sentSince s run.2, r.broadcasts = true

theorem algodClient_run (c : Session) (s : World) :
    (∃ client, algodClient.run c s = (.ok client, s)) ∨ ∃ e, algodClient.run c s = (.err e, s) := by
  have hrun : algodClient.run c s
      = (orBail "failed to construct Algod client" c.algod).run c s := rfl
  rw [hrun]
  cases c.algod with
  | ok client => exact Or.inl ⟨client, rfl⟩
  | error e => exact Or.inr ⟨_, rfl⟩

/-- A run that fails before it changes anything sends nothing. -/
theorem GroupSubmitted.of_failed {calls : List BuilderCall} {e : Error}
    (hfirst : (∃ message, FirstMisuse calls message) ∨ legsOf calls = [] ∨ c.CannotAsk s)
    (hmisused : ∀ message, FirstMisuse calls message → e = .text message)
    (hempty : Proper calls → legsOf calls = [] →
      e = .text "transaction group must contain at least one transaction") :
    GroupSubmitted c calls seed sender s (.err e, s) where
  failsFirst := iff_of_true ⟨⟨e, rfl⟩, sentSince_eq_nil rfl⟩ hfirst
  misused := fun message h => by rw [hmisused message h]
  empty := fun hproper hlegs => by rw [hempty hproper hlegs]
  broadcasts := by
    left
    rw [sentSince_eq_nil rfl]
    simp
  submitted := fun txId h => by simp at h

/-- What the two parts broadcast. -/
theorem signGroup_broadcastGroup (hlaws : c.env.algonaut.Lawful) (hsigns : c.Signs seed sender)
    (legs : List GroupLeg) (client : Algod) (s : World) :
    let run := (signGroup legs client seed sender >>= broadcastGroup client).run c s
    ((∀ r ∈ sentSince s run.2, r.broadcasts = false) ∨
      ∃ signed, SubmittedFor c seed sender legs signed ∧
        .sendTransactions signed ∈ sentSince s run.2 ∧
        ∀ r ∈ sentSince s run.2, r.broadcasts = true → r = .sendTransactions signed) ∧
    ∀ txId, run.1 = .ok txId → ∃ r ∈ sentSince s run.2, r.broadcasts = true := by
  have hquiet := signGroup_sends legs client seed sender c s
  dsimp only
  rw [Confined.run_bind]
  -- nothing is broadcast before all legs are signed
  rcases hrun : (signGroup legs client seed sender).run c s with ⟨signed | e | w, t⟩ <;>
    rw [hrun] at hquiet
  · rw [bind_of_ok hrun]
    have hall : s.SendsOnly (fun r => r.broadcasts = true → r = .sendTransactions signed)
        ((broadcastGroup client signed).run c t).2 := by
      apply trans_of _ _ (broadcastGroup_sends client signed c t)
      apply hquiet.mono
      intro r hr hbroadcast
      rw [hr] at hbroadcast
      exact absurd hbroadcast (by simp)
    constructor
    · by_cases hany : ∃ r ∈ sentSince s ((broadcastGroup client signed).run c t).2,
          r.broadcasts = true
      · obtain ⟨r, hmem, hbroadcast⟩ := hany
        refine Or.inr ⟨signed, signGroup_ok hlaws hsigns hrun, ?_, hall.sentSince⟩
        rw [hall.sentSince r hmem hbroadcast] at hmem
        exact hmem
      · left
        intro r hr
        by_contra hbroadcast
        exact hany ⟨r, hr, by simpa using hbroadcast⟩
    · intro txId hok
      refine ⟨.sendTransactions signed, ?_, rfl⟩
      have hmem := broadcastGroup_sent (c := c) (s := t) (Prod.ext hok rfl)
      exact (mem_sentSince_iff hquiet (broadcastGroup_sends client signed c t) _).mpr (Or.inr hmem)
  · rw [bind_of_err hrun]
    exact ⟨Or.inl hquiet.sentSince, fun txId h => by simp at h⟩
  · rw [bind_of_stop hrun]
    exact ⟨Or.inl hquiet.sentSince, fun txId h => by simp at h⟩

/-- Whether the two parts fail before a request is decided by whether one is prevented. -/
theorem signGroup_failsFirst (legs : List GroupLeg) (client : Algod) (seed : Wire.Field 32)
    (sender : Address) (s : World) :
    let run := (signGroup legs client seed sender >>= broadcastGroup client).run c s
    ((∃ e, run.1 = .err e) ∧ sentSince s run.2 = []) ↔ c.Prevents s := by
  dsimp only
  constructor
  · rintro ⟨⟨e, he⟩, hnothing⟩
    by_contra hallowed
    -- the first call would have been sent, whatever it came to
    have hasked : Asked s (((paramsFor client).run c s).1) ((paramsFor client).run c s).2 :=
      context_asked client.suggestedParamsCall _ hallowed
    have hgroup : Asked s ((signGroup legs client seed sender).run c s).1
        ((signGroup legs client seed sender).run c s).2 := hasked.bind
    rcases hgroup.bind (g := broadcastGroup client) with ⟨w, hw⟩ | hsome
    · rw [hw] at he
      exact absurd he (by simp)
    · exact hsome hnothing
  · intro h
    obtain ⟨e, t, hrun, hsent⟩ := context_prevented client.suggestedParamsCall
      "failed to fetch suggested params" h
    have hgroup : (signGroup legs client seed sender).run c s = (.err e, t) := bind_of_err hrun
    rw [Confined.run_bind, bind_of_err hgroup]
    exact ⟨⟨e, rfl⟩, sentSince_eq_nil hsent⟩

/-- For every sequence of builder calls: a misuse, the first one, or a group without legs is
reported before a request is made, and otherwise one is made unless the client cannot; and one group
at most is broadcast, with one signed transaction for each leg. -/
theorem group_submitted (hlaws : c.env.algonaut.Lawful) (hsigns : c.Signs seed sender)
    (calls : List BuilderCall) (s : World) :
    GroupSubmitted c calls seed sender s ((built calls).signAndSend.run c s) := by
  have hproper := built_error_eq_none_iff calls
  have hmisuse := built_error_eq_some_iff calls
  have hlegs := built_legs calls
  -- the builder's error is that of the first misuse
  rcases herror : (built calls).error with _ | message
  · have hnone : ∀ message, ¬ FirstMisuse calls message := by
      intro message h
      have hsome := (hmisuse message).mpr h
      rw [herror] at hsome
      exact absurd hsome (by simp)
    by_cases hempty : legsOf calls = []
    · rw [signAndSend_of_empty herror (hlegs.trans hempty)]
      exact .of_failed (Or.inr (Or.inl hempty)) (fun message h => absurd h (hnone message))
        fun _ _ => rfl
    · rw [signAndSend_run hsigns herror (by rw [hlegs]; exact hempty), hlegs]
      rcases algodClient_run c s with ⟨client, hclient⟩ | ⟨e, hclient⟩
      · rw [bind_of_ok hclient]
        have hfirst := signGroup_failsFirst (c := c) (legsOf calls) client seed sender s
        obtain ⟨hbroadcasts, hsubmitted⟩ :=
          signGroup_broadcastGroup hlaws hsigns (legsOf calls) client s
        refine ⟨hfirst.trans ?_, fun message h => absurd h (hnone message), fun _ h => absurd h hempty,
          hbroadcasts, hsubmitted⟩
        constructor
        · intro h
          exact Or.inr (Or.inr (Or.inr h))
        · rintro (⟨message, h⟩ | h | ⟨e, he⟩ | h)
          · exact absurd h (hnone message)
          · exact absurd h hempty
          · rw [hclient] at he
            exact absurd he (by simp)
          · exact h
      · rw [bind_of_err hclient]
        exact .of_failed (Or.inr (Or.inr (Or.inl ⟨e, by rw [hclient]⟩)))
          (fun message h => absurd h (hnone message)) (fun _ h => absurd h hempty)
  · have hfirst := (hmisuse message).mp herror
    rw [signAndSend_of_error herror]
    refine .of_failed (Or.inl ⟨message, hfirst⟩) ?_ ?_
    · intro message' h
      have hsame := (hmisuse message').mpr h
      rw [herror] at hsame
      rw [Option.some.inj hsame]
    · intro h
      rw [hproper.mpr h] at herror
      exact absurd herror (by simp)

/-! ## A client that signs -/

namespace LocalNode

/-- A library whose keys sign everything alike. -/
def library : Algonaut where
  parseAddress := fun _ => .ok ⟨.replicate 32 0⟩
  addressText := fun _ => ""
  build := fun b params => .ok
    { sender := b.sender, kind := b.kind, fee := b.fee.getD params.minFee, note := b.note,
      group := none }
  estimateBasicSigSize := fun _ => .ok 250
  sign := fun _ tx => .ok ⟨tx, .replicate 64 0, "TX"⟩
  toMsgPack := fun _ => .error "invalid"
  assignGroup := fun txns =>
    if txns.length ∈ List.range' 1 16 then
      .ok (txns.map fun tx => { tx with group := some (List.replicate 32 0) })
    else .error "invalid group size"
  bytesToSign := fun program => utf8 "Program" ++ program

theorem library_lawful : library.Lawful where
  build := by
    intro b params tx h
    cases h
    exact ⟨rfl, rfl⟩
  assignGroup := by
    intro txns group h
    unfold library at h
    dsimp only at h
    split_ifs at h
    cases h
    exact ⟨_, rfl⟩
  sign := by
    intro seed tx signed h
    cases h
    rfl

/-- The client with an account. -/
def signer (algod : Algod) : Session :=
  { ops := { (session algod).ops with passphrase := some "passphrase", address := some "A" }
    env := { (session algod).env with
      algonaut := library
      keys := { (session algod).env.keys with
        mnemonicToKey := fun _ => .ok (List.replicate 32 0) } } }

theorem signer_signs (algod : Algod) :
    (signer algod).Signs ⟨List.replicate 32 0, rfl⟩ ⟨⟨List.replicate 32 0, rfl⟩⟩ where
  key := rfl
  address := ⟨"A", rfl, rfl⟩

/-- A node that suggests parameters, knows the creator of every application, takes a group, and
confirms it in the round 8. -/
def submitting : Algod :=
  { silent with
    suggestedParams := fun _ => .done 0 (.ok ⟨0, 1000, 7, ⟨.replicate 32 0, rfl⟩, "local"⟩)
    app := fun _ _ => .done 0 (.ok (.ok (.obj [("creator", .str "C")])))
    sendTransactions := fun _ _ => .done 0 (.ok ⟨"TX"⟩)
    status := fun _ => .done 0 (.ok ⟨7⟩)
    pendingTransaction := fun _ _ => .done 0 (.ok
      { confirmedRound := some 8
        poolError := ""
        assetIndex := none
        txn := none
        value := .error "" }) }

/-- The client with an account, whose loops go on for ten rounds. -/
def submitter : Session :=
  { signer submitting with env := { (signer submitting).env with fuel := 10 } }

theorem submitter_signs : submitter.Signs ⟨List.replicate 32 0, rfl⟩ ⟨⟨List.replicate 32 0, rfl⟩⟩ where
  key := rfl
  address := ⟨"A", rfl, rfl⟩

/-- A payment, a call with an option, and an option of its own that overrides the first. -/
def paymentAndCall : List BuilderCall :=
  [.payment "A" 1000, .callApp 5 (some "buy()void") [], .foreignAsset 6, .foreignAsset 7]

end LocalNode

open LocalNode in
/-- A payment and a call are built, signed, broadcast as one group of two, and confirmed. -/
theorem group_submitted_payment_and_call :
    let run := (built paymentAndCall).signAndSend.run submitter unlimited
    GroupSubmitted submitter paymentAndCall ⟨List.replicate 32 0, rfl⟩ ⟨⟨List.replicate 32 0, rfl⟩⟩
      unlimited run ∧
    run.1 = .ok "TX" ∧
    ∃ signed, run.2.sent.filter Request.broadcasts = [.sendTransactions signed] ∧
      signed.map (·.transaction.kind) = [.pay ⟨⟨List.replicate 32 0, rfl⟩⟩ 1000,
        .callApplication 5 [⟨⟨List.replicate 32 0, rfl⟩⟩]
          [arc4Selector submitter.env.keys "buy()void"] (some [7]) none] :=
  ⟨group_submitted library_lawful submitter_signs _ unlimited, rfl, _, rfl, rfl⟩

open LocalNode in
/-- With a budget of no requests a proper group of one payment fails before a request, too. -/
theorem payment_fails_first :
    (signer confirming).Signs ⟨List.replicate 32 0, rfl⟩ ⟨⟨List.replicate 32 0, rfl⟩⟩ ∧
      ¬ (((∃ e, ((built [.payment "A" 1000]).signAndSend.run (signer confirming) (world 0)).1
          = .err e) ∧
        sentSince (world 0)
          ((built [.payment "A" 1000]).signAndSend.run (signer confirming) (world 0)).2 = []) ↔
        (∃ message, FirstMisuse [.payment "A" 1000] message) ∨
          legsOf [.payment "A" 1000] = []) := by
  refine ⟨signer_signs confirming, ?_⟩
  intro h
  have hfails : (∃ e, ((built [.payment "A" 1000]).signAndSend.run (signer confirming) (world 0)).1
        = .err e) ∧
      sentSince (world 0)
        ((built [.payment "A" 1000]).signAndSend.run (signer confirming) (world 0)).2 = [] :=
    ⟨⟨_, rfl⟩, rfl⟩
  rcases h.mp hfails with ⟨message, hmisuse⟩ | hempty
  · have hsome := (built_error_eq_some_iff _ message).mpr hmisuse
    exact absurd hsome (by simp [built, TransactionGroupBuilder.apply,
      TransactionGroupBuilder.payment, TransactionGroupBuilder.push, transactionGroup])
  · exact absurd hempty (by decide)

end BlockchainOps.Algo
