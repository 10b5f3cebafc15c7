import Neurobro.OwnerControls.Records

/-! Outreach: the drafts a batch is made of, the manifests that name their exact text, and
the progress of every piece that is sent from them. -/
namespace Neurobro.Outreach

open Agent (Err Time MessageRef trim)
open Jobs (ToolContext)
open OwnerControls (RecipientEffect RecipientApprovalSpec optionally refJson numberJson)

/-- What the service takes from its platform. -/
structure Host where
  sha256 : String → String
  sha256Bytes : List UInt8 → String
  numberText : Rat → String

structure Route where
  peerId : String
  threadId : Option String := none
  replyToMessageId : Option String := none
  deriving DecidableEq

/-! ## Drafts -/

structure AttachmentDraft where
  artifactId : String
  profile : String
  deriving DecidableEq

structure RecipientDraft where
  id : String
  route : Route
  text : String
  sourceRef : Option MessageRef := none
  attachments : Option (List AttachmentDraft) := none
  deriving DecidableEq

structure DraftInput where
  name : String
  recipients : List RecipientDraft
  requestKey : Option String := none
  deriving DecidableEq

/-- What the vault resolves an artifact to. -/
structure ResolvedFile where
  path : String
  mimeType : String
  name : String
  size : Option Nat := none
  deriving DecidableEq

structure OutreachAttachment where
  artifactId : String
  profile : String
  name : String
  sha256 : String
  size : Nat
  payload : Json

structure OutreachRecipient where
  id : String
  route : Route
  text : String
  sourceRef : Option MessageRef := none
  attachments : Option (List OutreachAttachment) := none

structure OutreachDraft where
  name : String
  recipients : List OutreachRecipient
  requestKey : Option String := none

def controlChar (c : Char) : Bool := c.toNat ≤ 31 || c.toNat = 127

def identifier (value label : String) : Except Err String :=
  if value = "" || utf16Length value > 128 || value.toList.any controlChar then .error (.error ("invalid " ++ label))
  else .ok value

def checkRoute (route : Route) : Except Err Route := do
  let peerId ← identifier route.peerId "peer ID"
  let threadId ← route.threadId.mapM (identifier · "thread ID")
  let replyToMessageId ← route.replyToMessageId.mapM (identifier · "reply ID")
  .ok ⟨peerId,threadId,replyToMessageId⟩

def checkText (text : String) : Except Err String :=
  if trim text = "" || utf16Length text > 4096 || text.toList.contains (Char.ofNat 0) then
    .error (.error "invalid recipient text")
  else .ok text

def nonempty (value : Option String) : Option String := value.filter (· ≠ "")

def Route.fields (route : Route) : List (String × Json) :=
  [("peerId",.str route.peerId)] ++ optionally "threadId" ((nonempty route.threadId).map .str) ++
    optionally "replyToMessageId" ((nonempty route.replyToMessageId).map .str)

def Route.json (route : Route) : Json := .obj route.fields

/-- The payload of an attachment, with the path its bytes were read from. -/
def attachmentPayload (route : Route) (file : ResolvedFile) (artifactId profile sha256 : String) (size : Nat) : Json :=
  .obj (route.fields ++ [("path",.str file.path),("artifactId",.str artifactId),("profile",.str profile),
    ("mediaType",.str (if profile = "file" then "document" else "photo")),("sha256",.str sha256),
    ("size",numberJson size),("name",.str file.name)])

/-- An attachment as it is approved, from the file the vault resolved and its bytes. -/
def OutreachAttachment.of (h : Host) (route : Route) (draft : AttachmentDraft) (file : ResolvedFile)
    (bytes : List UInt8) : Except Err OutreachAttachment :=
  if file.size.any (· ≠ bytes.length) then .error (.error "outreach artifact size mismatch")
  else
    let sha256 := h.sha256Bytes bytes
    .ok ⟨draft.artifactId,draft.profile,file.name,sha256,bytes.length,
      attachmentPayload route file draft.artifactId draft.profile sha256 bytes.length⟩

def OutreachAttachment.json (a : OutreachAttachment) : Json :=
  .obj [("artifactId",.str a.artifactId),("profile",.str a.profile),("name",.str a.name),("sha256",.str a.sha256),
    ("size",numberJson a.size),("payload",a.payload)]

def OutreachRecipient.fields (r : OutreachRecipient) : List (String × Json) :=
  [("id",.str r.id),("route",r.route.json),("text",.str r.text)] ++ optionally "sourceRef" (r.sourceRef.map refJson) ++
    optionally "attachments" (r.attachments.map fun list => .arr (list.map OutreachAttachment.json))

def OutreachDraft.json (d : OutreachDraft) : Json :=
  .obj ([("name",.str d.name),("recipients",.arr (d.recipients.map fun r => .obj r.fields))] ++
    optionally "requestKey" (d.requestKey.map .str))

def outreachPayload (r : OutreachRecipient) : Json := .obj (r.route.fields ++ [("text",.str r.text)])

/-! ## Manifests -/

structure ManifestRecipient extends OutreachRecipient where
  payloadHash : String

structure OutreachManifest where
  batchId : String
  taskId : String
  intentRevision : Int
  revision : Int
  name : String
  recipients : List ManifestRecipient
  manifestHash : String
  createdAt : Time

def Host.canonical (h : Host) (value : Json) : Except Err String :=
  (value.canonicalJson h.numberText).mapError .error

def Host.digest (h : Host) (value : Json) : Except Err String := do .ok (h.sha256 (← h.canonical value))

def ManifestRecipient.json (r : ManifestRecipient) : Json :=
  .obj (r.fields ++ [("payloadHash",.str r.payloadHash)])

def batchName (h : Host) (context : ToolContext) (draft : OutreachDraft) : Except Err String :=
  h.digest (.arr [.str context.taskId,numberJson context.intentRevision,draft.json])

def ManifestRecipient.of (h : Host) (r : OutreachRecipient) : Except Err ManifestRecipient := do
  .ok { r with payloadHash := ← h.digest (outreachPayload r) }

def newManifest (h : Host) (now : Time) (context : ToolContext) (batchId : String) (revision : Int)
    (draft : OutreachDraft) : Except Err OutreachManifest := do
  let recipients ← draft.recipients.mapM (ManifestRecipient.of h)
  let content := Json.obj [("batchId",.str batchId),("taskId",.str context.taskId),
    ("intentRevision",numberJson context.intentRevision),("revision",numberJson revision),("name",.str draft.name),
    ("recipients",.arr (recipients.map ManifestRecipient.json))]
  .ok ⟨batchId,context.taskId,context.intentRevision,revision,draft.name,recipients,← h.digest content,now⟩

/-! ## Requests -/

structure EffectRequest where
  id : String
  capability : String
  resource : String
  payload : Json

def OutreachManifest.operation (h : Host) (m : OutreachManifest) (recipientId : String) : String :=
  "outreach:" ++ m.batchId ++ ":revision:" ++ h.numberText m.revision ++ ":recipient:" ++ recipientId

/-- The text of a recipient, or one of its attachments. -/
def effectRequest (h : Host) (m : OutreachManifest) (r : ManifestRecipient) (attachment : Option Nat) :
    Except Err EffectRequest :=
  match attachment with
  | none => .ok ⟨m.operation h r.id,"telegram.send",r.route.peerId,outreachPayload r.toOutreachRecipient⟩
  | some index =>
    match r.attachments.bind (·[index]?) with
    | none => .error (.error "Cannot read properties of undefined (reading 'payload')")
    | some item =>
      .ok ⟨m.operation h r.id ++ ":attachment:" ++ h.numberText index,"telegram.media.send",r.route.peerId,item.payload⟩

/-! ## Progress -/

inductive RecipientState where
  | unselected
  | pending
  | dispatching
  | verified
  | failed
  | unknown
  | cancelled
  deriving DecidableEq

/-- The progress of one piece; `R` is what its receipt is. -/
structure OperationProgress (R : Type) where
  id : String
  state : RecipientState := .unselected
  effectId : Option String := none
  dispatchContext : Option ToolContext := none
  receipt : Option R := none
  reason : Option String := none
  prewireRejected : Bool := false
  updatedAt : Time
  deriving DecidableEq

structure RecipientProgress (R : Type) extends OperationProgress R where
  textState : Option RecipientState := none
  attachments : Option (List (OperationProgress R)) := none
  deriving DecidableEq

inductive BatchState where
  | draft
  | approved
  | sending
  | completed
  | partial_
  | unknown
  | cancelled
  deriving DecidableEq

structure Batch (R : Type) where
  id : String
  taskId : String
  intentRevision : Int
  manifestRevision : Int
  manifestHash : String
  state : BatchState := .draft
  version : Nat := 1
  selectedRecipientIds : List String := []
  recipients : List (RecipientProgress R)
  approvalReceiptId : Option String := none
  createdAt : Time
  updatedAt : Time
  cancelledAt : Option Time := none
  reason : Option String := none
  deriving DecidableEq

abbrev Progress := RecipientProgress Json
abbrev OutreachBatch := Batch Json

section texts

variable {R R' : Type} (f : R → R')

def OperationProgress.mapReceipt (p : OperationProgress R) : OperationProgress R' :=
  { p with receipt := p.receipt.map f }

def RecipientProgress.mapReceipt (p : RecipientProgress R) : RecipientProgress R' where
  toOperationProgress := p.toOperationProgress.mapReceipt f
  textState := p.textState
  attachments := p.attachments.map fun list => list.map (·.mapReceipt f)

def Batch.mapReceipt (b : Batch R) : Batch R' := { b with recipients := b.recipients.map (·.mapReceipt f) }

end texts

/-- The canonical text of a receipt; two records are the same where their texts are. -/
def Host.text (h : Host) (value : Json) : Option String := (h.canonical value).toOption

def sameOperation (h : Host) (a b : OperationProgress Json) : Bool := a.mapReceipt h.text = b.mapReceipt h.text

def sameBatch (h : Host) (a b : OutreachBatch) : Bool := a.mapReceipt h.text = b.mapReceipt h.text

def initialProgress (h : Host) (now : Time) (r : OutreachRecipient) : Progress where
  id := r.id
  updatedAt := now
  textState := if r.attachments.any (!·.isEmpty) then some .unselected else none
  attachments := (r.attachments.filter (!·.isEmpty)).map fun list =>
    (List.range list.length).map fun index => { id := h.numberText index, updatedAt := now }

/-! ## Receipts -/

structure OwnerApprovalReceipt where
  id : String
  context : ToolContext
  objectKind : String
  objectId : String
  batchRevision : Int
  manifestHash : String
  selectedRecipientIds : List String
  recipients : List RecipientApprovalSpec
  deriving DecidableEq

/-- What a proposal is bound to. -/
structure OwnerScopeProposal where
  context : ToolContext
  objectId : String
  batchRevision : Int
  manifestHash : String
  deriving DecidableEq

/-- The broker's record of an effect. -/
structure Effect where
  id : String
  taskId : String
  intentRevision : Int
  capability : String
  resource : String
  payload : Json
  payloadHash : String
  state : Agent.EffectState
  receipt : Option Json := none
  reason : Option String := none

end Neurobro.Outreach
