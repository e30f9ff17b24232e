import BlockchainOps.Lib.Base64
import BlockchainOps.Lib.Reading
import BlockchainOps.Sidewinder.Transaction

/-!
# What a Sidewinder node answers

A node answers in JSON. The `…Wire` structures are what the JSON is parsed to, with byte fields in
base64 and stages and dispositions by name; the `into…` functions turn them into the values that
a caller is handed, and report the first field that cannot be read.

`toWire` writes a value the way a node does. Each `into…` function reads exactly what `toWire`
writes (`pending_reads` and the like), and its faults are those of its fields, in the order in
which the fields are read.
-/

namespace BlockchainOps.Sidewinder

open Reading

def SidewinderError.malformedResponse (operation message : String) : SidewinderError :=
  { kind := .malformedResponse, operation, status := none, message }

/-- Decode a base64 byte field. -/
def decodeB64 (b64 : Base64) (operation field value : String) : Except SidewinderError Bytes :=
  (b64.decode value).mapError fun e =>
    .malformedResponse operation s!"bad base64 in `{field}`: {e}"

/-! ## Stages and dispositions -/

/-- Lifecycle stage of a transaction. -/
inductive Stage
  | pending
  | provisional
  | final
  | failed
  | rejected
  | expired
deriving DecidableEq, Repr

namespace Stage

def parse (operation value : String) : Except SidewinderError Stage :=
  if value = "pending" then .ok .pending
  else if value = "provisional" then .ok .provisional
  else if value = "final" then .ok .final
  else if value = "failed" then .ok .failed
  else if value = "rejected" then .ok .rejected
  else if value = "expired" then .ok .expired
  else .error (.malformedResponse operation s!"unknown stage `{value}`")

/-- Polling can stop. -/
def isTerminal (s : Stage) : Bool := !(s = .pending || s = .provisional)

/-- The transaction will never be final. -/
def isUnsuccessful (s : Stage) : Bool := s = .failed || s = .rejected || s = .expired

/-- The name that a node gives it. -/
def name : Stage → String
  | pending => "pending"
  | provisional => "provisional"
  | final => "final"
  | failed => "failed"
  | rejected => "rejected"
  | expired => "expired"

end Stage

/-- How a failed transaction was disposed of. -/
inductive Disposition
  | reSelected
  | escalated
  | failed
  | rejected
  | expired
deriving DecidableEq, Repr

namespace Disposition

def parse (operation value : String) : Except SidewinderError Disposition :=
  if value = "reselected" then .ok .reSelected
  else if value = "escalated" then .ok .escalated
  else if value = "failed" then .ok .failed
  else if value = "rejected" then .ok .rejected
  else if value = "expired" then .ok .expired
  else .error (.malformedResponse operation s!"unknown disposition `{value}`")

def name : Disposition → String
  | reSelected => "reselected"
  | escalated => "escalated"
  | failed => "failed"
  | rejected => "rejected"
  | expired => "expired"

end Disposition

/-! ## Values and their wire forms -/

/-- Why a transaction failed. -/
structure TxnError where
  message : String
  disposition : Option Disposition
deriving DecidableEq, Repr

/-- An event emitted during execution. -/
structure Event where
  selector : Bytes
  name : String
deriving DecidableEq, Repr

structure PendingTransaction where
  txId : String
  stage : Stage
  result : Option Bytes
  logs : List Bytes
  events : List Event
  certificate : Option Bytes
  proof : Option Bytes
  error : Option TxnError
deriving DecidableEq, Repr

structure SuggestedParams where
  instanceId : Bytes
  lastRound : UInt64
  minFee : UInt64
  maxValidityWindow : UInt64
deriving DecidableEq, Repr

structure NodeStatus where
  instanceId : Bytes
  lastRound : UInt64
  nodeSetEpoch : UInt64
  synced : Bool
  version : Option String
deriving DecidableEq, Repr

/-- One declared event in an operation's configuration. -/
structure EventSchema where
  name : String
  signature : String
  selector : Bytes
deriving DecidableEq, Repr

structure OperationSchema where
  typ : UInt32
  name : Option String
  returnType : String
  events : List EventSchema
deriving DecidableEq, Repr

structure PostTransactionResponseWire where
  txId : String
deriving DecidableEq, Repr

structure EventWire where
  selector : String
  name : String
deriving DecidableEq, Repr

structure ErrorWire where
  message : String
  disposition : Option String
deriving DecidableEq, Repr

structure PendingWire where
  txId : String
  stage : String
  result : Option String
  logs : List String
  events : List EventWire
  certificate : Option String
  proof : Option String
  error : Option ErrorWire
deriving DecidableEq, Repr

structure SuggestedParamsWire where
  instanceId : String
  lastRound : UInt64
  minFee : UInt64
  maxValidityWindow : UInt64
deriving DecidableEq, Repr

structure NodeStatusWire where
  instanceId : String
  lastRound : UInt64
  nodeSetEpoch : UInt64
  synced : Bool
  version : Option String
deriving DecidableEq, Repr

structure EventSchemaWire where
  name : String
  signature : String
  selector : String
deriving DecidableEq, Repr

structure OperationSchemaWire where
  typ : UInt32
  name : Option String
  returnType : String
  events : List EventSchemaWire
deriving DecidableEq, Repr

/-! ## From the wire -/

def EventWire.intoEvent (b64 : Base64) (operation : String) (w : EventWire) :
    Except SidewinderError Event := do
  let selector ← decodeB64 b64 operation "events[].selector" w.selector
  .ok { selector, name := w.name }

def ErrorWire.intoTxnError (operation : String) (w : ErrorWire) :
    Except SidewinderError TxnError := do
  let disposition ← w.disposition.mapM (Disposition.parse operation)
  .ok { message := w.message, disposition }

def PendingWire.intoPending (b64 : Base64) (operation : String) (w : PendingWire) :
    Except SidewinderError PendingTransaction := do
  let stage ← Stage.parse operation w.stage
  let result ← w.result.mapM (decodeB64 b64 operation "result")
  let logs ← w.logs.mapM (decodeB64 b64 operation "logs[]")
  let events ← w.events.mapM (EventWire.intoEvent b64 operation)
  let certificate ← w.certificate.mapM (decodeB64 b64 operation "certificate")
  let proof ← w.proof.mapM (decodeB64 b64 operation "proof")
  let error ← w.error.mapM (ErrorWire.intoTxnError operation)
  .ok { txId := w.txId, stage, result, logs, events, certificate, proof, error }

def SuggestedParamsWire.intoParams (b64 : Base64) (operation : String) (w : SuggestedParamsWire) :
    Except SidewinderError SuggestedParams := do
  let instanceId ← decodeB64 b64 operation "instanceId" w.instanceId
  .ok {
    instanceId
    lastRound := w.lastRound
    minFee := w.minFee
    maxValidityWindow := w.maxValidityWindow }

def NodeStatusWire.intoStatus (b64 : Base64) (operation : String) (w : NodeStatusWire) :
    Except SidewinderError NodeStatus := do
  let instanceId ← decodeB64 b64 operation "instanceId" w.instanceId
  .ok {
    instanceId
    lastRound := w.lastRound
    nodeSetEpoch := w.nodeSetEpoch
    synced := w.synced
    version := w.version }

def EventSchemaWire.intoSchema (b64 : Base64) (operation : String) (w : EventSchemaWire) :
    Except SidewinderError EventSchema := do
  let selector ← decodeB64 b64 operation "events[].selector" w.selector
  .ok { name := w.name, signature := w.signature, selector }

def OperationSchemaWire.intoSchema (b64 : Base64) (operation : String) (w : OperationSchemaWire) :
    Except SidewinderError OperationSchema := do
  let events ← w.events.mapM (EventSchemaWire.intoSchema b64 operation)
  .ok { typ := w.typ, name := w.name, returnType := w.returnType, events }

/-! ## To the wire -/

def Event.toWire (b64 : Base64) (e : Event) : EventWire := ⟨b64.encode e.selector, e.name⟩

def TxnError.toWire (e : TxnError) : ErrorWire := ⟨e.message, e.disposition.map Disposition.name⟩

def PendingTransaction.toWire (b64 : Base64) (p : PendingTransaction) : PendingWire where
  txId := p.txId
  stage := p.stage.name
  result := p.result.map b64.encode
  logs := p.logs.map b64.encode
  events := p.events.map (Event.toWire b64)
  certificate := p.certificate.map b64.encode
  proof := p.proof.map b64.encode
  error := p.error.map TxnError.toWire

def SuggestedParams.toWire (b64 : Base64) (p : SuggestedParams) : SuggestedParamsWire where
  instanceId := b64.encode p.instanceId
  lastRound := p.lastRound
  minFee := p.minFee
  maxValidityWindow := p.maxValidityWindow

def NodeStatus.toWire (b64 : Base64) (s : NodeStatus) : NodeStatusWire where
  instanceId := b64.encode s.instanceId
  lastRound := s.lastRound
  nodeSetEpoch := s.nodeSetEpoch
  synced := s.synced
  version := s.version

def EventSchema.toWire (b64 : Base64) (e : EventSchema) : EventSchemaWire :=
  ⟨e.name, e.signature, b64.encode e.selector⟩

def OperationSchema.toWire (b64 : Base64) (s : OperationSchema) : OperationSchemaWire where
  typ := s.typ
  name := s.name
  returnType := s.returnType
  events := s.events.map (EventSchema.toWire b64)

variable {b64 : Base64} {operation : String}

/-! ## Each reader reads the wire form, and nothing else -/

theorem stage_reads (operation : String) : Reads (Stage.parse operation) Stage.name := by
  intro value stage
  unfold Stage.parse
  split_ifs with h₁ h₂ h₃ h₄ h₅ h₆
  case neg =>
    -- none of the names
    constructor
    · exact fun h => absurd h (by simp)
    · intro h
      subst h
      cases stage <;> simp [Stage.name] at *
  all_goals
    subst_vars
    cases stage <;> simp [Stage.name]

theorem disposition_reads (operation : String) :
    Reads (Disposition.parse operation) Disposition.name := by
  intro value disposition
  unfold Disposition.parse
  split_ifs with h₁ h₂ h₃ h₄ h₅
  case neg =>
    constructor
    · exact fun h => absurd h (by simp)
    · intro h
      subst h
      cases disposition <;> simp [Disposition.name] at *
  all_goals
    subst_vars
    cases disposition <;> simp [Disposition.name]

theorem b64_reads (b64 : Base64) (operation field : String) :
    Reads (decodeB64 b64 operation field) b64.encode := by
  intro value bytes
  unfold decodeB64
  rw [Fallible.mapError_eq_ok]
  constructor
  · exact b64.encode_of_decode
  · intro h
    rw [← h]
    exact b64.decode_encode bytes

theorem event_reads (b64 : Base64) (operation : String) :
    Reads (EventWire.intoEvent b64 operation) (Event.toWire b64) := by
  intro ⟨selector, name⟩ ⟨bytes, name'⟩
  unfold EventWire.intoEvent Event.toWire
  simp only [Fallible.bind_eq_ok, b64_reads b64 operation _ selector, Except.ok.injEq,
    Event.mk.injEq, EventWire.mk.injEq]
  constructor
  · intro h
    obtain ⟨_, hselector, rfl, hname⟩ := h
    exact ⟨hselector, hname.symm⟩
  · intro h
    exact ⟨bytes, h.1, rfl, h.2.symm⟩

theorem txnError_reads (operation : String) :
    Reads (ErrorWire.intoTxnError operation) TxnError.toWire := by
  intro ⟨message, disposition⟩ ⟨message', disposition'⟩
  unfold ErrorWire.intoTxnError TxnError.toWire
  simp only [Fallible.bind_eq_ok, (disposition_reads operation).option disposition,
    Except.ok.injEq, TxnError.mk.injEq, ErrorWire.mk.injEq]
  constructor
  · intro h
    obtain ⟨_, hdisposition, hmessage, rfl⟩ := h
    exact ⟨hmessage.symm, hdisposition⟩
  · intro h
    exact ⟨disposition', h.2, h.1.symm, rfl⟩

theorem pending_reads (b64 : Base64) (operation : String) :
    Reads (PendingWire.intoPending b64 operation) (PendingTransaction.toWire b64) := by
  intro ⟨txId, stage, result, logs, events, certificate, proof, error⟩
    ⟨txId', stage', result', logs', events', certificate', proof', error'⟩
  have hbytes : ∀ field, Reads (decodeB64 b64 operation field) b64.encode :=
    fun field => b64_reads b64 operation field
  unfold PendingWire.intoPending PendingTransaction.toWire
  simp only [Fallible.bind_eq_ok, stage_reads operation stage, (hbytes _).option result,
    (hbytes _).list logs, (event_reads b64 operation).list events,
    (hbytes _).option certificate, (hbytes _).option proof,
    (txnError_reads operation).option error, Except.ok.injEq, PendingTransaction.mk.injEq,
    PendingWire.mk.injEq]
  constructor
  · intro h
    obtain ⟨_, hstage, _, hresult, _, hlogs, _, hevents, _, hcertificate, _, hproof, _, herror,
      htxId, rfl, rfl, rfl, rfl, rfl, rfl, rfl⟩ := h
    exact ⟨htxId.symm, hstage, hresult, hlogs, hevents, hcertificate, hproof, herror⟩
  · intro h
    obtain ⟨htxId, hstage, hresult, hlogs, hevents, hcertificate, hproof, herror⟩ := h
    exact ⟨stage', hstage, result', hresult, logs', hlogs, events', hevents, certificate',
      hcertificate, proof', hproof, error', herror, htxId.symm, rfl, rfl, rfl, rfl, rfl, rfl, rfl⟩

theorem params_reads (b64 : Base64) (operation : String) :
    Reads (SuggestedParamsWire.intoParams b64 operation) (SuggestedParams.toWire b64) := by
  intro ⟨instanceId, lastRound, minFee, window⟩ ⟨instanceId', lastRound', minFee', window'⟩
  unfold SuggestedParamsWire.intoParams SuggestedParams.toWire
  simp only [Fallible.bind_eq_ok, b64_reads b64 operation _ instanceId, Except.ok.injEq,
    SuggestedParams.mk.injEq, SuggestedParamsWire.mk.injEq]
  constructor
  · intro h
    obtain ⟨_, hid, rfl, hround, hfee, hwindow⟩ := h
    exact ⟨hid, hround.symm, hfee.symm, hwindow.symm⟩
  · intro h
    exact ⟨instanceId', h.1, rfl, h.2.1.symm, h.2.2.1.symm, h.2.2.2.symm⟩

theorem nodeStatus_reads (b64 : Base64) (operation : String) :
    Reads (NodeStatusWire.intoStatus b64 operation) (NodeStatus.toWire b64) := by
  intro ⟨instanceId, lastRound, epoch, synced, version⟩
    ⟨instanceId', lastRound', epoch', synced', version'⟩
  unfold NodeStatusWire.intoStatus NodeStatus.toWire
  simp only [Fallible.bind_eq_ok, b64_reads b64 operation _ instanceId, Except.ok.injEq,
    NodeStatus.mk.injEq, NodeStatusWire.mk.injEq]
  constructor
  · intro h
    obtain ⟨_, hid, rfl, hround, hepoch, hsynced, hversion⟩ := h
    exact ⟨hid, hround.symm, hepoch.symm, hsynced.symm, hversion.symm⟩
  · intro h
    obtain ⟨hid, hround, hepoch, hsynced, hversion⟩ := h
    exact ⟨instanceId', hid, rfl, hround.symm, hepoch.symm, hsynced.symm, hversion.symm⟩

theorem eventSchema_reads (b64 : Base64) (operation : String) :
    Reads (EventSchemaWire.intoSchema b64 operation) (EventSchema.toWire b64) := by
  intro ⟨name, signature, selector⟩ ⟨name', signature', bytes⟩
  unfold EventSchemaWire.intoSchema EventSchema.toWire
  simp only [Fallible.bind_eq_ok, b64_reads b64 operation _ selector, Except.ok.injEq,
    EventSchema.mk.injEq, EventSchemaWire.mk.injEq]
  constructor
  · intro h
    obtain ⟨_, hselector, hname, hsignature, rfl⟩ := h
    exact ⟨hname.symm, hsignature.symm, hselector⟩
  · intro h
    exact ⟨bytes, h.2.2, h.1.symm, h.2.1.symm, rfl⟩

theorem schema_reads (b64 : Base64) (operation : String) :
    Reads (OperationSchemaWire.intoSchema b64 operation) (OperationSchema.toWire b64) := by
  intro ⟨typ, name, returnType, events⟩ ⟨typ', name', returnType', events'⟩
  unfold OperationSchemaWire.intoSchema OperationSchema.toWire
  simp only [Fallible.bind_eq_ok, (eventSchema_reads b64 operation).list events,
    Except.ok.injEq, OperationSchema.mk.injEq, OperationSchemaWire.mk.injEq]
  constructor
  · intro h
    obtain ⟨_, hevents, htyp, hname, hreturn, rfl⟩ := h
    exact ⟨htyp.symm, hname.symm, hreturn.symm, hevents⟩
  · intro h
    exact ⟨events', h.2.2.2, h.1.symm, h.2.1.symm, h.2.2.1.symm, rfl⟩

/-! ## Faults -/

/-- What is wrong with a base64 field, if anything is. -/
def b64Faults (b64 : Base64) (operation field value : String) : List SidewinderError :=
  match b64.decode value with
  | .ok _ => []
  | .error e => [.malformedResponse operation s!"bad base64 in `{field}`: {e}"]

/-- What is wrong with the name of a stage, if anything is. -/
def stageFaults (operation value : String) : List SidewinderError :=
  if value ∈ [Stage.pending, .provisional, .final, .failed, .rejected, .expired].map Stage.name
  then [] else [.malformedResponse operation s!"unknown stage `{value}`"]

/-- What is wrong with the name of a disposition, if anything is. -/
def dispositionFaults (operation value : String) : List SidewinderError :=
  if value ∈ [Disposition.reSelected, .escalated, .failed, .rejected, .expired].map Disposition.name
  then [] else [.malformedResponse operation s!"unknown disposition `{value}`"]

/-- The faults of a pending response, field by field. -/
def PendingWire.faults (b64 : Base64) (operation : String) (w : PendingWire) :
    List SidewinderError :=
  stageFaults operation w.stage
    ++ w.result.toList.flatMap (fun r => b64Faults b64 operation "result" r)
    ++ w.logs.flatMap (fun log => b64Faults b64 operation "logs[]" log)
    ++ w.events.flatMap (fun event => b64Faults b64 operation "events[].selector" event.selector)
    ++ w.certificate.toList.flatMap (fun c => b64Faults b64 operation "certificate" c)
    ++ w.proof.toList.flatMap (fun p => b64Faults b64 operation "proof" p)
    ++ w.error.toList.flatMap
        (fun e => e.disposition.toList.flatMap fun d => dispositionFaults operation d)

def SuggestedParamsWire.faults (b64 : Base64) (operation : String) (w : SuggestedParamsWire) :
    List SidewinderError :=
  b64Faults b64 operation "instanceId" w.instanceId

def NodeStatusWire.faults (b64 : Base64) (operation : String) (w : NodeStatusWire) :
    List SidewinderError :=
  b64Faults b64 operation "instanceId" w.instanceId

def OperationSchemaWire.faults (b64 : Base64) (operation : String) (w : OperationSchemaWire) :
    List SidewinderError :=
  w.events.flatMap fun event => b64Faults b64 operation "events[].selector" event.selector

theorem faults_decodeB64 (field value : String) :
    faults (decodeB64 b64 operation field value) = b64Faults b64 operation field value := by
  unfold decodeB64 b64Faults
  rcases b64.decode value with e | bytes <;> rfl

theorem faults_stage (operation value : String) :
    faults (Stage.parse operation value) = stageFaults operation value := by
  unfold Stage.parse stageFaults
  split_ifs <;> simp_all [Stage.name]

theorem faults_disposition (operation value : String) :
    faults (Disposition.parse operation value) = dispositionFaults operation value := by
  unfold Disposition.parse dispositionFaults
  split_ifs <;> simp_all [Disposition.name]

theorem faults_event (w : EventWire) : faults (w.intoEvent b64 operation)
    = b64Faults b64 operation "events[].selector" w.selector := by
  unfold EventWire.intoEvent
  rw [faults_bind_ok, faults_decodeB64]

theorem faults_txnError (w : ErrorWire) : faults (w.intoTxnError operation)
    = w.disposition.toList.flatMap fun d => dispositionFaults operation d := by
  unfold ErrorWire.intoTxnError
  rw [faults_bind_ok, faults_option]
  simp only [faults_disposition]

theorem faults_eventSchema (w : EventSchemaWire) : faults (w.intoSchema b64 operation)
    = b64Faults b64 operation "events[].selector" w.selector := by
  unfold EventSchemaWire.intoSchema
  rw [faults_bind_ok, faults_decodeB64]

/-- A pending response is refused with the first of its faults. -/
theorem pending_error_iff {w : PendingWire} {e : SidewinderError} :
    w.intoPending b64 operation = .error e ↔ (w.faults b64 operation).head? = some e := by
  have hhead : (faults (w.intoPending b64 operation)).head? = (w.faults b64 operation).head? := by
    unfold PendingWire.intoPending PendingWire.faults
    simp only [← faults_stage, ← faults_event, ← faults_txnError]
    simp only [← faults_decodeB64]
    simp only [List.append_assoc, List.head?_append, ← faults_option, ← head_faults_list]
    iterate 6
      apply head_faults_bind
      intro _
    rw [faults_bind_ok]
  rw [error_iff_head_faults, hhead]

theorem params_error_iff {w : SuggestedParamsWire} {e : SidewinderError} :
    w.intoParams b64 operation = .error e ↔ (w.faults b64 operation).head? = some e := by
  unfold SuggestedParamsWire.intoParams SuggestedParamsWire.faults
  rw [error_iff_head_faults, faults_bind_ok, faults_decodeB64]

theorem nodeStatus_error_iff {w : NodeStatusWire} {e : SidewinderError} :
    w.intoStatus b64 operation = .error e ↔ (w.faults b64 operation).head? = some e := by
  unfold NodeStatusWire.intoStatus NodeStatusWire.faults
  rw [error_iff_head_faults, faults_bind_ok, faults_decodeB64]

theorem schema_error_iff {w : OperationSchemaWire} {e : SidewinderError} :
    w.intoSchema b64 operation = .error e ↔ (w.faults b64 operation).head? = some e := by
  unfold OperationSchemaWire.intoSchema OperationSchemaWire.faults
  rw [error_iff_head_faults, faults_bind_ok, head_faults_list]
  simp only [faults_eventSchema]

/-! ## What a refusal says -/

/-- The error is about a malformed response to the operation. -/
def Malformed (operation : String) (e : SidewinderError) : Prop :=
  ∃ message, e = .malformedResponse operation message

theorem malformed_b64 {field value : String} {e : SidewinderError}
    (h : e ∈ b64Faults b64 operation field value) : Malformed operation e := by
  unfold b64Faults at h
  split at h
  · exact absurd h List.not_mem_nil
  · exact ⟨_, List.mem_singleton.mp h⟩

theorem malformed_stage {value : String} {e : SidewinderError}
    (h : e ∈ stageFaults operation value) : Malformed operation e := by
  unfold stageFaults at h
  split_ifs at h
  · exact absurd h List.not_mem_nil
  · exact ⟨_, List.mem_singleton.mp h⟩

theorem malformed_disposition {value : String} {e : SidewinderError}
    (h : e ∈ dispositionFaults operation value) : Malformed operation e := by
  unfold dispositionFaults at h
  split_ifs at h
  · exact absurd h List.not_mem_nil
  · exact ⟨_, List.mem_singleton.mp h⟩

/-- Whatever is wrong with a pending response, its error names the operation. -/
theorem malformed_pending {w : PendingWire} {e : SidewinderError}
    (h : w.intoPending b64 operation = .error e) : Malformed operation e := by
  have hmem := List.mem_of_mem_head? (pending_error_iff.mp h)
  unfold PendingWire.faults at hmem
  simp only [List.mem_append, List.mem_flatMap] at hmem
  rcases hmem with (((((hstage | ⟨_, -, hresult⟩) | ⟨_, -, hlog⟩) | ⟨_, -, hevent⟩) |
    ⟨_, -, hcertificate⟩) | ⟨_, -, hproof⟩) | ⟨_, -, _, -, hdisposition⟩
  · exact malformed_stage hstage
  · exact malformed_b64 hresult
  · exact malformed_b64 hlog
  · exact malformed_b64 hevent
  · exact malformed_b64 hcertificate
  · exact malformed_b64 hproof
  · exact malformed_disposition hdisposition

theorem malformed_params {w : SuggestedParamsWire} {e : SidewinderError}
    (h : w.intoParams b64 operation = .error e) : Malformed operation e :=
  malformed_b64 (List.mem_of_mem_head? (params_error_iff.mp h))

theorem malformed_nodeStatus {w : NodeStatusWire} {e : SidewinderError}
    (h : w.intoStatus b64 operation = .error e) : Malformed operation e :=
  malformed_b64 (List.mem_of_mem_head? (nodeStatus_error_iff.mp h))

theorem malformed_schema {w : OperationSchemaWire} {e : SidewinderError}
    (h : w.intoSchema b64 operation = .error e) : Malformed operation e := by
  obtain ⟨event, -, hevent⟩ := List.mem_flatMap.mp
    (List.mem_of_mem_head? (schema_error_iff.mp h))
  exact malformed_b64 hevent

/-- What a node answers is read back exactly: each decoder accepts the wire forms of its values
and nothing else, and refuses any other response for the first of its faults, which says what is
wrong with which field in the answer to which operation. -/
theorem responses_read (b64 : Base64) (operation : String) :
    (Reads (PendingWire.intoPending b64 operation) (PendingTransaction.toWire b64) ∧
      ∀ (w : PendingWire) e, w.intoPending b64 operation = .error e ↔
        (w.faults b64 operation).head? = some e) ∧
    (Reads (SuggestedParamsWire.intoParams b64 operation) (SuggestedParams.toWire b64) ∧
      ∀ (w : SuggestedParamsWire) e, w.intoParams b64 operation = .error e ↔
        (w.faults b64 operation).head? = some e) ∧
    (Reads (NodeStatusWire.intoStatus b64 operation) (NodeStatus.toWire b64) ∧
      ∀ (w : NodeStatusWire) e, w.intoStatus b64 operation = .error e ↔
        (w.faults b64 operation).head? = some e) ∧
    (Reads (OperationSchemaWire.intoSchema b64 operation) (OperationSchema.toWire b64) ∧
      ∀ (w : OperationSchemaWire) e, w.intoSchema b64 operation = .error e ↔
        (w.faults b64 operation).head? = some e) :=
  ⟨⟨pending_reads b64 operation, fun _ _ => pending_error_iff⟩,
    ⟨params_reads b64 operation, fun _ _ => params_error_iff⟩,
    ⟨nodeStatus_reads b64 operation, fun _ _ => nodeStatus_error_iff⟩,
    ⟨schema_reads b64 operation, fun _ _ => schema_error_iff⟩⟩

end BlockchainOps.Sidewinder
