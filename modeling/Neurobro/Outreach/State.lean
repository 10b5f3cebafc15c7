import Neurobro.Data.Results
import Neurobro.Data.Table
import Neurobro.Outreach.Records

/-! The batches of outreach and every transaction on them. The outcomes of sends are read
from the broker's outbox; a batch only projects them. -/
namespace Neurobro.Outreach

open Agent (Err Time MessageRef trim)
open Jobs (ToolContext)
open OwnerControls (RecipientEffect RecipientApprovalSpec)

/-- `effectIdentity` is the broker's name for an effect; `artifacts` says whether there is a
vault, and `rank` is the keyed order in which the store lists rows. -/
structure Options where
  host : Host
  rank : String → Nat
  accountId : String
  effectIdentity : ToolContext → EffectRequest → String
  artifacts : Bool := true

/-- What the service reads around it: the broker's contexts and outbox, and the files. -/
structure Surroundings where
  toolContext : String → Except Err ToolContext
  effect : String → Option Effect
  file : String → Option (List UInt8)

/-- Manifests are stored under their batch and revision. `draining` is kept in memory by
each instance of the service. -/
structure State where
  batches : Table String OutreachBatch := ∅
  manifests : Table (String × Int) OutreachManifest := ∅
  draining : List (Nat × String) := []
  around : Surroundings
  now : Time

variable (o : Options)

/-! ## Projection of outcomes -/

def receiptField (key : String) (receipt : Option Json) : Option Json := receipt.bind (·.field? key)

def receiptText (key : String) (receipt : Option Json) : Option String := (receiptField key receipt).bind Json.str?

/-- What the outbox says of a verified send: it counts with the receipt of its destination. -/
def verifiedProgress (resource : String) (e : Effect) (p : OperationProgress Json) : OperationProgress Json :=
  if receiptText "peerId" e.receipt = some resource && (receiptText "messageId" e.receipt).any (· ≠ "") then
    { p with state := .verified, reason := none }
  else { p with state := .unknown, reason := some "verified effect lacks exact destination/message readback receipt" }

def outcomeProgress (resource : String) (e : Effect) (p : OperationProgress Json) : OperationProgress Json :=
  match e.state with
  | .verified => verifiedProgress resource e p
  | .failed => { p with state := .failed }
  | .cancelled => { p with state := .cancelled }
  | .dispatching => { p with state := .dispatching }
  | .prepared | .unknown => { p with state := .unknown }

/-- The effect is the one the manifest asks for. -/
def Effect.matches (e : Effect) (m : OutreachManifest) (context : ToolContext) (request : EffectRequest) :
    Except Err Bool := do
  let hash ← o.host.digest request.payload
  let stored ← o.host.canonical e.payload
  let asked ← o.host.canonical request.payload
  .ok (e.id = o.effectIdentity context request && e.taskId = m.taskId && e.intentRevision = m.intentRevision &&
    e.capability = request.capability && e.resource = request.resource && e.payloadHash = hash && stored = asked)

def projectEffect (now : Time) (resource : String) (e : Effect) (p : OperationProgress Json) : OperationProgress Json :=
  let after := outcomeProgress resource e { p with receipt := e.receipt, reason := e.reason }
  if sameOperation o.host p after then after else { after with updatedAt := now }

/-- A piece without an effect has nothing to project. -/
def projectOperation (around : Surroundings) (now : Time) (m : OutreachManifest) (recipientId : String)
    (attachment : Option Nat) (p : OperationProgress Json) : Except Err (OperationProgress Json) :=
  match p.effectId, p.dispatchContext with
  | some effectId, some context =>
    match around.effect effectId with
    | none =>
      if p.prewireRejected then
        .ok { p with state := .failed, reason := some "broker authority rejected before any dispatch" }
      else
        .ok { p with
          state := .unknown, reason := some "dispatch reservation has no reconciled broker effect; no replay" }
    | some e =>
      match m.recipients.find? (·.id = recipientId) with
      | none => .error (.error "Cannot read properties of undefined (reading 'route')")
      | some recipient => do
        let request ← effectRequest o.host m recipient attachment
        if ← e.matches o m context request then .ok (projectEffect o now recipient.route.peerId e p)
        else
          .ok { p with
            state := .unknown, reason := some "broker effect does not match approved immutable recipient payload" }
  | _,_ => .ok p

/-- The state of a recipient with attachments, from the states of its pieces. -/
def combined (states : List RecipientState) : RecipientState :=
  if states.contains .unknown then .unknown
  else if states.contains .dispatching then .dispatching
  else if states.contains .failed then .failed
  else if states.contains .cancelled then .cancelled
  else if states.all (· = .verified) then .verified
  else if states.contains .pending then .pending
  else .unselected

/-- Attachments are projected under their indices. -/
def projectAttachments (around : Surroundings) (now : Time) (m : OutreachManifest) (recipientId : String) (index : Nat) :
    List (OperationProgress Json) → Except Err (List (OperationProgress Json))
  | [] => .ok []
  | p :: rest => do
    let first ← projectOperation o around now m recipientId (some index) p
    let others ← projectAttachments around now m recipientId (index + 1) rest
    .ok (first :: others)

def project (around : Surroundings) (now : Time) (m : OutreachManifest) (p : Progress) : Except Err Progress :=
  match p.attachments with
  | none => do
    .ok { p with toOperationProgress := ← projectOperation o around now m p.id none p.toOperationProgress }
  | some attachments => do
    let text ← projectOperation o around now m p.id none { p.toOperationProgress with state := p.textState.getD p.state }
    let pieces ← projectAttachments o around now m p.id 0 attachments
    .ok {
      toOperationProgress := { text with state := combined (text.state :: pieces.map (·.state)) }
      textState := some text.state
      attachments := some pieces }

/-! ## Transactions -/

namespace State

variable (s : State)

def load (context : ToolContext) (batchId : String) : Except Err (OutreachBatch × OutreachManifest) := do
  let _ ← identifier batchId "batch ID"
  match s.batches.get batchId with
  | none => .error (.error "batch outside current task revision")
  | some batch =>
    if batch.taskId ≠ context.taskId || batch.intentRevision ≠ context.intentRevision then
      .error (.error "batch outside current task revision")
    else
      match s.manifests.get (batch.id,batch.manifestRevision) with
      | none => .error (.error "outreach manifest binding mismatch")
      | some manifest =>
        if manifest.taskId ≠ context.taskId || manifest.manifestHash ≠ batch.manifestHash then
          .error (.error "outreach manifest binding mismatch")
        else .ok (batch,manifest)

/-- A batch is rewritten under a new version, unless nothing about it changed. -/
def update (batchId : String) (mutation : OutreachBatch → Except Err OutreachBatch) :
    Except Err (OutreachBatch × State) :=
  match s.batches.get batchId with
  | none => .error (.error "batch missing")
  | some current => do
    let changed ← mutation current
    if sameBatch o.host current changed then .ok (changed,s)
    else
      let saved := { changed with version := changed.version + 1, updatedAt := s.now }
      .ok (saved,{ s with batches := s.batches.put batchId saved })

def newBatch (m : OutreachManifest) : OutreachBatch where
  id := m.batchId
  taskId := m.taskId
  intentRevision := m.intentRevision
  manifestRevision := 1
  manifestHash := m.manifestHash
  recipients := m.recipients.map fun r => initialProgress o.host s.now r.toOutreachRecipient
  createdAt := s.now
  updatedAt := s.now

/-- Proposing a batch that exists changes nothing. -/
def propose (m : OutreachManifest) : State :=
  if (s.batches.get m.batchId).isSome then s
  else
    let manifests := if (s.manifests.get (m.batchId,1)).isSome then s.manifests else s.manifests.put (m.batchId,1) m
    { s with manifests, batches := s.batches.put m.batchId (s.newBatch o m) }

/-- The new revision replaces the whole progress of the batch. -/
def OutreachBatch.revised (m : OutreachManifest) (now : Time) (batch : OutreachBatch) : OutreachBatch :=
  { batch with
    manifestRevision := m.revision
    manifestHash := m.manifestHash
    state := .draft
    approvalReceiptId := none
    selectedRecipientIds := []
    recipients := m.recipients.map fun r => initialProgress o.host now r.toOutreachRecipient }

def revise (batchId : String) (version : Nat) (m : OutreachManifest) : Except Err (OutreachBatch × State) :=
  match s.batches.get batchId with
  | none => .error (.error "Cannot read properties of undefined (reading 'version')")
  | some actual =>
    if actual.version ≠ version then .error (.error "batch changed while revising")
    else if (s.manifests.get (batchId,m.revision)).isSome then .error (.error "manifest revision already exists")
    else { s with manifests := s.manifests.put (batchId,m.revision) m }.update o batchId fun current =>
      .ok (OutreachBatch.revised o m s.now current)

def selectAttachment (state : RecipientState) (a : OperationProgress Json) : OperationProgress Json :=
  if a.effectId.isSome then a else { a with state }

/-- A recipient that was attempted is never reset by a later selection. -/
def selectProgress (selected : List String) (now : Time) (p : Progress) : Progress :=
  if p.effectId.isSome then p
  else
    let state : RecipientState := if selected.contains p.id then .pending else .unselected
    { p with
      state, updatedAt := now
      textState := if p.attachments.isSome then some state else p.textState
      attachments := p.attachments.map fun list => list.map (selectAttachment state) }

def attach (batchId : String) (version : Nat) (manifestHash receiptId : String) (selected : List String) :
    Except Err (OutreachBatch × State) :=
  s.update o batchId fun current =>
    if current.version ≠ version || current.manifestHash ≠ manifestHash || current.state = .cancelled then
      .error (.error "batch changed during approval")
    else .ok { current with
      approvalReceiptId := some receiptId
      selectedRecipientIds := selected
      state := .approved
      reason := none
      recipients := current.recipients.map (selectProgress selected s.now) }

/-- What the outcomes of the selected recipients make of a batch. -/
def settledState (batch : OutreachBatch) : BatchState :=
  let selected := batch.recipients.filter fun r => batch.selectedRecipientIds.contains r.id
  if batch.state = .cancelled || batch.selectedRecipientIds.isEmpty then batch.state
  else if selected.all (·.state = .verified) then .completed
  else if selected.all fun r => [RecipientState.verified,.failed,.unknown,.cancelled].contains r.state then
    if selected.any (·.state = .unknown) then .unknown else .partial_
  else batch.state

def inspect (batchId : String) (m : OutreachManifest) : Except Err (OutreachBatch × State) :=
  s.update o batchId fun current => do
    let recipients ← current.recipients.mapM (project o s.around s.now m)
    let projected := { current with recipients }
    .ok { projected with state := settledState projected }

def cancelAttachment (a : OperationProgress Json) : OperationProgress Json :=
  if a.effectId.isNone && a.state = .pending then { a with state := .cancelled } else a

def cancelText (now : Time) (p : Progress) : Progress :=
  if p.effectId.isNone && p.state = .pending then
    { p with state := .cancelled, textState := some .cancelled, updatedAt := now }
  else p

def cancelProgress (now : Time) (p : Progress) : Progress :=
  { cancelText now p with attachments := p.attachments.map fun list => list.map cancelAttachment }

def cancel (batchId : String) : Except Err (OutreachBatch × State) :=
  s.update o batchId fun current => .ok { current with
    state := .cancelled
    cancelledAt := current.cancelledAt.or (some s.now)
    recipients := current.recipients.map (cancelProgress s.now) }

def note (batchId reason : String) : Except Err (OutreachBatch × State) :=
  s.update o batchId fun current => .ok { current with reason := some reason }

end State

/-! ## Pieces -/

/-- The first recipient of that name is rewritten. -/
def withRecipient (recipientId : String) (f : Progress → Except Err Progress) : List Progress → Except Err (List Progress)
  | [] => .error (.error "Cannot read properties of undefined (reading 'attachments')")
  | p :: rest =>
    if p.id = recipientId then do .ok ((← f p) :: rest)
    else do .ok (p :: (← withRecipient recipientId f rest))

/-- A piece of a recipient: its text, or the attachment at an index. -/
def RecipientProgress.operation (p : Progress) : Option Nat → Except Err (OperationProgress Json)
  | none => .ok p.toOperationProgress
  | some index =>
    match p.attachments.bind (·[index]?) with
    | none => .error (.error "Cannot read properties of undefined (reading 'state')")
    | some a => .ok a

def RecipientProgress.putOperation (p : Progress) (attachment : Option Nat) (a : OperationProgress Json) : Progress :=
  match attachment with
  | none => { p with toOperationProgress := a }
  | some index => { p with attachments := p.attachments.map fun list => list.set index a }

/-- Whether the piece may still be sent. -/
def RecipientProgress.pieceState (p : Progress) : Option Nat → Except Err RecipientState
  | none => .ok (p.textState.getD p.state)
  | some index => do .ok (← p.operation (some index)).state

/-- One dispatch: the piece, what it is built from, and the approval it goes by. -/
structure Reservation where
  batchId : String
  manifest : OutreachManifest
  recipient : ManifestRecipient
  attachment : Option Nat
  request : EffectRequest
  receiptId : String
  effectId : String
  context : ToolContext

namespace State

variable (s : State)

def reserveProgress (now : Time) (r : Reservation) (p : Progress) : Except Err Progress := do
  let actual ← p.operation r.attachment
  if (← p.pieceState r.attachment) ≠ .pending then .error (.error "batch changed before recipient dispatch")
  else
    let reserved := p.putOperation r.attachment { actual with
      state := .dispatching, effectId := some r.effectId, dispatchContext := some r.context, updatedAt := now }
    .ok (if r.attachment.isNone && p.attachments.isSome then { reserved with textState := some .dispatching } else reserved)

def reserve (r : Reservation) : Except Err (OutreachBatch × State) :=
  s.update o r.batchId fun current =>
    if current.state = .cancelled || current.manifestHash ≠ r.manifest.manifestHash ||
        current.approvalReceiptId ≠ some r.receiptId then
      .error (.error "batch changed before recipient dispatch")
    else do .ok { current with
      state := .sending
      recipients := ← withRecipient r.recipient.id (reserveProgress s.now r) current.recipients }

/-- The attachment is gone or has changed since it was approved. -/
def failProgress (m : OutreachManifest) (index : Nat) (p : Progress) : Except Err Progress := do
  let a ← p.operation (some index)
  project o s.around s.now m (p.putOperation (some index)
    { a with state := .failed, reason := some "approved attachment unavailable or changed" })

def failAttachment (batchId recipientId : String) (index : Nat) (m : OutreachManifest) :
    Except Err (OutreachBatch × State) :=
  s.update o batchId fun current => do
    .ok { current with recipients := ← withRecipient recipientId (s.failProgress o m index) current.recipients }

def prewireProgress (r : Reservation) (p : Progress) : Except Err Progress := do
  let actual ← p.operation r.attachment
  if actual.effectId ≠ some r.effectId then .error (.error "prewire rejection binding changed")
  else .ok (p.putOperation r.attachment { actual with prewireRejected := true })

def prewire (r : Reservation) : Except Err (OutreachBatch × State) :=
  s.update o r.batchId fun current => do
    .ok { current with recipients := ← withRecipient r.recipient.id (prewireProgress r) current.recipients }

def settleProgress (r : Reservation) (reservedHash : String) (current : OutreachBatch) (p : Progress) :
    Except Err Progress := do
  let actual ← p.operation r.attachment
  if actual.effectId ≠ some r.effectId || reservedHash ≠ current.manifestHash then
    .error (.error "recipient projection binding changed")
  else project o s.around s.now r.manifest p

def settle (r : Reservation) (reservedHash : String) : Except Err (OutreachBatch × State) :=
  s.update o r.batchId fun current => do
    .ok { current with
      recipients := ← withRecipient r.recipient.id (s.settleProgress o r reservedHash current) current.recipients }

end State

/-- Commits of the service; `enter` and `leave` are about its memory. -/
inductive Cmd where
  | propose (m : OutreachManifest)
  | revise (batchId : String) (version : Nat) (m : OutreachManifest)
  | inspect (batchId : String) (m : OutreachManifest)
  | attach (batchId : String) (version : Nat) (manifestHash receiptId : String) (selected : List String)
  | cancel (batchId : String)
  | note (batchId reason : String)
  | failAttachment (batchId recipientId : String) (index : Nat) (m : OutreachManifest)
  | reserve (r : Reservation)
  | prewire (r : Reservation)
  | settle (r : Reservation) (reservedHash : String)
  | enter (service : Nat) (batchId : String)
  | leave (service : Nat) (batchId : String)

@[reducible] def Cmd.Result : Cmd → Type
  | .propose _ | .enter _ _ | .leave _ _ => Unit
  | _ => Except Err OutreachBatch

def exec (o : Options) : (cmd : Cmd) → State → cmd.Result × State
  | .propose m,s => ((),s.propose o m)
  | .revise batchId version m,s => atomically s (s.revise o batchId version m)
  | .inspect batchId m,s => atomically s (s.inspect o batchId m)
  | .attach batchId version manifestHash receiptId selected,s =>
    atomically s (s.attach o batchId version manifestHash receiptId selected)
  | .cancel batchId,s => atomically s (s.cancel o batchId)
  | .note batchId reason,s => atomically s (s.note o batchId reason)
  | .failAttachment batchId recipientId index m,s => atomically s (s.failAttachment o batchId recipientId index m)
  | .reserve r,s => atomically s (s.reserve o r)
  | .prewire r,s => atomically s (s.prewire o r)
  | .settle r reservedHash,s => atomically s (s.settle o r reservedHash)
  | .enter service batchId,s => ((),{ s with draining := (service,batchId) :: s.draining })
  | .leave service batchId,s => ((),{ s with draining := s.draining.filter (· ≠ (service,batchId)) })

end Neurobro.Outreach
