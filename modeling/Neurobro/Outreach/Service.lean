import Neurobro.Coop.Process
import Neurobro.Outreach.State

/-! The operations of outreach. A drain reserves one piece at a time and hands it to the
broker; the vault, the owner's approvals and the broker are awaited. -/
namespace Neurobro.Outreach

open Coop
open Agent (Err Time MessageRef trim)
open Jobs (ToolContext)
open OwnerControls (RecipientEffect RecipientApprovalSpec)

structure ApprovalQuery where
  context : ToolContext
  receiptId : String
  batchId : String
  revision : Int
  manifestHash : String
  selection : List String

/-- The part of a batch that a request is for. -/
structure Piece where
  batchId : String
  recipientId : String
  attachment : Option Nat
  deriving DecidableEq

inductive Call where
  | resolveForSend (context : ToolContext) (artifactId : String)
  | proposeApproval (context : ToolContext) (m : OutreachManifest)
  | getOutreachApproval (q : ApprovalQuery)
  | authorizeTool (token capability resource : String)
  | executeEffect (token : String) (request : EffectRequest) (piece : Piece)

@[reducible] def Call.Reply : Call → Type
  | .resolveForSend _ _ => Except Err ResolvedFile
  | .proposeApproval _ _ => Except Err OwnerScopeProposal
  | .getOutreachApproval _ => Except Err OwnerApprovalReceipt
  | .authorizeTool _ _ _ | .executeEffect _ _ _ => Except Err Unit

inductive Shock where
  | around (around : Surroundings)
  | clock (now : Time)

def shock : Shock → State → State
  | .around around,s => { s with around }
  | .clock now,s => { s with now }

@[reducible] def outreach (o : Options) : Signature where
  State := State
  Err := Err
  Cmd := Cmd
  Result := Cmd.Result
  exec := exec o
  Call := Call
  Reply := Call.Reply
  Shock := Shock
  shock := shock
  restart := fun s => { s with draining := [] }

abbrev M (o : Options) (α : Type) := Async (outreach o) α

structure Counts where
  unselected : Nat
  pending : Nat
  dispatching : Nat
  verified : Nat
  failed : Nat
  unknown : Nat
  cancelled : Nat

structure OutreachStatus where
  batch : OutreachBatch
  manifest : OutreachManifest
  counts : Counts

/-! ## Readings -/

section readings

variable (o : Options)

def OutreachBatch.status (batch : OutreachBatch) (manifest : OutreachManifest) : OutreachStatus :=
  let count (state : RecipientState) : Nat := batch.recipients.countP (·.state = state)
  ⟨batch,manifest,⟨count .unselected,count .pending,count .dispatching,count .verified,count .failed,count .unknown,
    count .cancelled⟩⟩

def State.readFile (path : String) (s : State) : Except Err (List UInt8) :=
  match s.around.file path with
  | some bytes => .ok bytes
  | none => .error (.error ("ENOENT: no such file or directory, open '" ++ path ++ "'"))

def checkSource (source : Option MessageRef) : Except Err Unit :=
  if source.any fun ref => ref.accountId ≠ o.accountId || ref.peerId = "" || ref.messageId = "" then
    .error (.error "source reference belongs to another account")
  else .ok ()

def checkDraft (input : DraftInput) : Except Err Unit := do
  if trim input.name = "" || utf16Length input.name > 256 || input.recipients.isEmpty || input.recipients.length > 50 then
    .error (.error "invalid outreach draft")
  else
    let _ ← input.requestKey.mapM (identifier · "request key")
    .ok ()

def checkRecipients (recipients : List OutreachRecipient) : Except Err Unit :=
  if !decide (recipients.map OutreachRecipient.id).Nodup || !decide (recipients.map OutreachRecipient.route).Nodup then
    .error (.error "duplicate recipient identity or destination")
  else .ok ()

/-- The effects a recipient with attachments was approved for: its text, then each of them. -/
def ManifestRecipient.effects (m : OutreachManifest) (r : ManifestRecipient) (attachments : List OutreachAttachment) :
    Except Err (List RecipientEffect) :=
  (none :: (List.range attachments.length).map some).mapM fun attachment => do
    let request ← effectRequest o.host m r attachment
    .ok ⟨request.id,request.capability,← o.host.digest request.payload⟩

def OwnerApprovalReceipt.binds (receipt : OwnerApprovalReceipt) (q : ApprovalQuery) : Bool :=
  receipt.id = q.receiptId && receipt.objectKind = "outreach" && receipt.objectId = q.batchId &&
    receipt.batchRevision = q.revision && receipt.manifestHash = q.manifestHash &&
    receipt.context.taskId = q.context.taskId && receipt.context.intentRevision = q.context.intentRevision &&
    receipt.selectedRecipientIds.isPerm q.selection

def recipientApproved (m : OutreachManifest) (receipt : OwnerApprovalReceipt) (recipientId : String) : Except Err Unit :=
  match receipt.recipients.find? (·.id = recipientId), m.recipients.find? (·.id = recipientId) with
  | some approved,some draft =>
    if approved.peerId ≠ draft.route.peerId || approved.payloadHash ≠ draft.payloadHash then
      .error (.error "owner approval payload binding mismatch")
    else
      match draft.attachments with
      | some (first :: rest) => do
        let effects ← draft.effects o m (first :: rest)
        if approved.effects = some effects then .ok () else .error (.error "owner approval attachment binding mismatch")
      | _ => .ok ()
  | _,_ => .error (.error "owner approval payload binding mismatch")

def OutreachManifest.query (m : OutreachManifest) (context : ToolContext) (receiptId : String) (selected : List String) :
    ApprovalQuery := ⟨context,receiptId,m.batchId,m.revision,m.manifestHash,selected⟩

def OutreachManifest.approved (m : OutreachManifest) (q : ApprovalQuery) (receipt : OwnerApprovalReceipt) :
    Except Err OwnerApprovalReceipt := do
  if !receipt.binds q then .error (.error "owner approval receipt binding mismatch")
  else
    q.selection.forM (recipientApproved o m receipt)
    .ok receipt

def validSelection (batch : OutreachBatch) (m : OutreachManifest) (selected : List String) : Bool :=
  batch.state ≠ .cancelled && !selected.isEmpty && decide selected.Nodup &&
    selected.all fun id => m.recipients.any (·.id = id)

def OutreachBatch.next (batch : OutreachBatch) : Option Progress :=
  batch.recipients.find? fun r => r.state = .pending && batch.selectedRecipientIds.contains r.id

/-- Which piece of a pending recipient comes next: its text, and then its attachments. -/
def RecipientProgress.nextPiece (p : Progress) : Except Err (Option Nat) :=
  match p.attachments with
  | some attachments =>
    if p.textState = some .verified then
      match attachments.findIdx? (·.state = .pending) with
      | some index => .ok (some index)
      | none => .error (.error "Cannot read properties of undefined (reading 'payload')")
    else .ok none
  | none => .ok none

/-- The reservation a drain makes for its next piece. -/
def reservation (batch : OutreachBatch) (m : OutreachManifest) (receiptId : String) (context : ToolContext) (p : Progress) :
    Except Err Reservation :=
  match m.recipients.find? (·.id = p.id) with
  | none => .error (.error "Cannot read properties of undefined (reading 'route')")
  | some recipient => do
    let attachment ← p.nextPiece
    let request ← effectRequest o.host m recipient attachment
    .ok ⟨batch.id,m,recipient,attachment,request,receiptId,o.effectIdentity context request,context⟩

def Reservation.piece (r : Reservation) : Piece := ⟨r.batchId,r.recipient.id,r.attachment⟩

def Reservation.file (r : Reservation) : Option OutreachAttachment :=
  r.attachment.bind fun index => r.recipient.attachments.bind (·[index]?)

/-- The bytes in the vault and those that were approved are still the same. -/
def State.unchanged (a : OutreachAttachment) (file : ResolvedFile) (s : State) : Except Err Unit := do
  let bytes ← s.readFile file.path
  let original ← s.readFile (((a.payload.field? "path").bind Json.str?).getD "")
  if o.host.sha256Bytes bytes ≠ a.sha256 || o.host.sha256Bytes original ≠ a.sha256 || bytes.length ≠ a.size then
    .error (.error "approved attachment changed")
  else .ok ()

end readings

/-! ## Programs -/

section programs

variable {o : Options} {α : Type}

abbrev orThrow (r : Except Err α) : M o α := @Async.lift (outreach o) α r

abbrev refuse (e : Err) : M o α := @Async.lift (outreach o) α (.error e)

abbrev look (f : State → α) : M o α := @Async.look (outreach o) α f

abbrev require (f : State → Except Err α) : M o α := @Async.check (outreach o) α f

abbrev commit (cmd : Cmd) : M o cmd.Result := @Async.act (outreach o) cmd

abbrev ask (call : Call) : M o call.Reply := @Async.call (outreach o) call

def resolveForSend (context : ToolContext) (artifactId : String) : M o ResolvedFile := do
  let answer ← ask (.resolveForSend context artifactId)
  orThrow answer

def validateAttachment (context : ToolContext) (route : Route) (draft : AttachmentDraft) : M o OutreachAttachment := do
  if !o.artifacts || !(["file","photo"].contains draft.profile) then
    refuse (.error "outreach artifact adapter/profile unavailable")
  else do
    let artifactId ← orThrow (identifier draft.artifactId "artifact ID")
    let file ← resolveForSend context artifactId
    if draft.profile = "photo" && !("image/".toList.isPrefixOf file.mimeType.toList) then
      refuse (.error "outreach photo MIME mismatch")
    else do
      let bytes ← require fun s => s.readFile file.path
      orThrow (OutreachAttachment.of o.host route draft file bytes)

def validateRecipient (context : ToolContext) (r : RecipientDraft) : M o OutreachRecipient := do
  let id ← orThrow (identifier r.id "recipient ID")
  let route ← orThrow (checkRoute r.route)
  let text ← orThrow (checkText r.text)
  orThrow (checkSource o r.sourceRef)
  if (r.attachments.getD []).length > 10 then refuse (.error "invalid outreach attachments")
  else do
    let attachments ← Async.gather (r.attachments.getD []) (validateAttachment context route)
    if !decide (attachments.map OutreachAttachment.artifactId).Nodup then
      refuse (.error "duplicate outreach attachment")
    else pure ⟨id,route,text,r.sourceRef,if attachments.isEmpty then none else some attachments⟩

/-- The recipients wait side by side in the source; here they wait one after another, since
nothing of the store is read or written between. -/
def validateDraft (context : ToolContext) (input : DraftInput) : M o OutreachDraft := do
  orThrow (checkDraft input)
  let recipients ← Async.await (Async.gather input.recipients (validateRecipient context))
  orThrow (checkRecipients recipients)
  pure ⟨input.name,recipients,nonempty input.requestKey⟩

def inspect (context : ToolContext) (batchId : String) : M o OutreachStatus := do
  let (_,manifest) ← require fun s => s.load context batchId
  let batch ← commit (.inspect batchId manifest)
  let batch ← orThrow batch
  pure (OutreachBatch.status batch manifest)

def propose (context : ToolContext) (input : DraftInput) : M o OutreachStatus := do
  let draft ← Async.await (validateDraft context input)
  let batchId ← orThrow (batchName o.host context draft)
  let manifest ← require fun s => newManifest o.host s.now context batchId 1 draft
  commit (.propose manifest)
  inspect context batchId

def revise (context : ToolContext) (batchId : String) (expectedRevision : Int) (input : DraftInput) :
    M o OutreachStatus := do
  let draft ← Async.await (validateDraft context input)
  let (batch,_) ← require fun s => s.load context batchId
  if batch.manifestRevision ≠ expectedRevision || batch.state = .cancelled ||
      batch.recipients.any (·.effectId.isSome) then
    refuse (.error "batch revision conflict or dispatch already started; create a follow-up batch")
  else do
    let manifest ← require fun s => newManifest o.host s.now context batchId (expectedRevision + 1) draft
    let revised ← commit (.revise batchId batch.version manifest)
    let _ ← orThrow revised
    inspect context batchId

def requestApproval (context : ToolContext) (batchId : String) (expectedRevision : Int) : M o OwnerScopeProposal := do
  let (batch,manifest) ← require fun s => s.load context batchId
  if batch.state = .cancelled || manifest.revision ≠ expectedRevision then
    refuse (.error "batch revision unavailable")
  else do
    let answer ← ask (.proposeApproval context manifest)
    let proposal ← orThrow answer
    if proposal.objectId ≠ batchId || proposal.batchRevision ≠ manifest.revision ||
        proposal.manifestHash ≠ manifest.manifestHash || proposal.context.taskId ≠ context.taskId ||
        proposal.context.intentRevision ≠ context.intentRevision then
      refuse (.error "approval proposal binding mismatch")
    else pure proposal

def approval (context : ToolContext) (manifest : OutreachManifest) (receiptId : String) (selected : List String) :
    M o OwnerApprovalReceipt := do
  let answer ← ask (.getOutreachApproval (manifest.query context receiptId selected))
  let receipt ← orThrow answer
  orThrow (manifest.approved o (manifest.query context receiptId selected) receipt)

def attachApproval (context : ToolContext) (batchId receiptId : String) (selected : List String) :
    M o OutreachStatus := do
  let (batch,manifest) ← require fun s => s.load context batchId
  if !validSelection batch manifest selected then refuse (.error "invalid approved recipient selection")
  else do
    let _ ← Async.await (approval context manifest receiptId selected)
    let attached ← commit (.attach batchId batch.version manifest.manifestHash receiptId selected)
    let _ ← orThrow attached
    inspect context batchId

def list (context : ToolContext) : M o (List OutreachStatus) := do
  let relevant ← look fun s => ((s.batches.list o.rank).filter fun batch =>
    batch.taskId = context.taskId && batch.intentRevision = context.intentRevision).take 100
  Async.gather relevant fun batch => inspect context batch.id

def cancel (context : ToolContext) (batchId : String) : M o OutreachStatus := do
  let _ ← require fun s => s.load context batchId
  let cancelled ← commit (.cancel batchId)
  let _ ← orThrow cancelled
  inspect context batchId

/-! ### Sending -/

def authorize (token resource : String) : M o Unit := do
  let answer ← ask (.authorizeTool token "outreach.send" resource)
  orThrow answer

/-- Scope and revocation are read again through the vault; the payload stays as approved. -/
def refreshAttachment (context : ToolContext) (a : OutreachAttachment) : M o Unit := do
  if !o.artifacts then refuse (.error "Cannot read properties of undefined (reading 'resolveForSend')")
  else do
    let file ← resolveForSend context a.artifactId
    require fun s => s.unchanged o a file

def refresh (context : ToolContext) (r : Reservation) : M o Unit :=
  match r.file with
  | none => pure ()
  | some a => refreshAttachment context a

/-- The broker's authority exception before an absent outbox record proves that nothing left;
any other end of the call stays open. -/
def recordEnd (r : Reservation) (sent : Except Err Unit) : M o Unit :=
  match sent with
  | .error (.authority _) => do
    let absent ← look fun s => (s.around.effect r.effectId).isNone
    if absent then do
      let rejected ← commit (.prewire r)
      let _ ← orThrow rejected
      pure ()
    else pure ()
  | _ => pure ()

def execute (token : String) (r : Reservation) : M o Unit := do
  let answer ← ask (.executeEffect token r.request r.piece)
  orThrow answer

def send (token : String) (r : Reservation) : M o Unit := do
  let reserved ← commit (.reserve r)
  let reserved ← orThrow reserved
  let sent ← Async.settle (execute token r)
  recordEnd r sent
  let settled ← commit (.settle r reserved.manifestHash)
  let _ ← orThrow settled
  pure ()

def sendNext (token : String) (context : ToolContext) (batch : OutreachBatch) (manifest : OutreachManifest)
    (receiptId : String) (p : Progress) : M o Unit := do
  authorize token context.taskId
  let r ← orThrow (reservation o batch manifest receiptId context p)
  let fresh ← Async.settle (refresh context r)
  match fresh with
  | .error _ => do
    let failed ← commit (.failAttachment r.batchId r.recipient.id (r.attachment.getD 0) manifest)
    let _ ← orThrow failed
    pure ()
  | .ok _ => send token r

/-- One turn of a drain; it says whether there may be more to send. -/
def dispatchOne (token : String) (context : ToolContext) (batchId : String) : M o Bool := do
  let (batch,manifest) ← require fun s => s.load context batchId
  if batch.state = .cancelled then pure false
  else
    match batch.approvalReceiptId with
    | none => refuse (.error "batch has no trusted owner approval")
    | some receiptId =>
      match OutreachBatch.next batch with
      | none => pure false
      | some p => do
        let approved ← Async.settle (Async.await (approval context manifest receiptId batch.selectedRecipientIds))
        match approved with
        | .error _ => do
          let noted ← commit (.note batchId "current owner approval does not admit new sends")
          let _ ← orThrow noted
          pure false
        | .ok _ => do
          sendNext token context batch manifest receiptId p
          pure true

def dispatchUpTo (token : String) (context : ToolContext) (batchId : String) : Nat → M o Unit
  | 0 => pure ()
  | limit + 1 => do
    let more ← dispatchOne token context batchId
    if more then dispatchUpTo token context batchId limit else pure ()

def drainBatch (service : Nat) (token : String) (context : ToolContext) (batchId : String) (limit : Nat) :
    M o OutreachStatus := do
  commit (.enter service batchId)
  let status ← Async.settle (do
    dispatchUpTo token context batchId limit
    inspect context batchId)
  commit (.leave service batchId)
  orThrow status

def drain (service : Nat) (token batchId : String) (limit : Int) : M o OutreachStatus := do
  if limit < 1 || limit > 20 then refuse (.error "invalid outreach dispatch bound")
  else do
    let context ← require fun s => s.around.toolContext token
    authorize token context.taskId
    let _ ← require fun s => s.load context batchId
    let draining ← look fun s => s.draining.contains (service,batchId)
    if draining then inspect context batchId else drainBatch service token context batchId limit.toNat

end programs

/-- `service` is the instance of the service that is asked. -/
inductive Op where
  | propose (context : ToolContext) (input : DraftInput)
  | revise (context : ToolContext) (batchId : String) (expectedRevision : Int) (input : DraftInput)
  | requestApproval (context : ToolContext) (batchId : String) (expectedRevision : Int)
  | attachApproval (context : ToolContext) (batchId receiptId : String) (selected : List String)
  | inspect (context : ToolContext) (batchId : String)
  | list (context : ToolContext)
  | cancel (context : ToolContext) (batchId : String)
  | drain (service : Nat) (token batchId : String) (limit : Int)

def discard {o : Options} {α : Type} (m : M o α) : M o Unit := do
  let _ ← m
  pure ()

def operation (o : Options) : Op → M o Unit
  | .propose context input => discard (propose context input)
  | .revise context batchId expectedRevision input => discard (revise context batchId expectedRevision input)
  | .requestApproval context batchId expectedRevision => discard (requestApproval context batchId expectedRevision)
  | .attachApproval context batchId receiptId selected => discard (attachApproval context batchId receiptId selected)
  | .inspect context batchId => discard (inspect context batchId)
  | .list context => discard (list context)
  | .cancel context batchId => discard (cancel context batchId)
  | .drain service token batchId limit => discard (drain service token batchId limit)

def body (o : Options) (op : Op) : Proc (outreach o) := operation o op .done

def boot (around : Surroundings) (now : Time) : State := { around, now }

def Reachable (o : Options) (w : World (outreach o)) : Prop :=
  ∃ around now, World.Leads (body o) (.initial (boot around now)) w

end Neurobro.Outreach
