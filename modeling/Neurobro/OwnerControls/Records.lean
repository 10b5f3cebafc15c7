import Neurobro.Agent.Contracts
import Neurobro.Jobs.Contracts
import Neurobro.OwnerControls.Directives

/-! Owner authority: what the owner wrote, the plans and policies for sources, and the
proposals and receipts of outreach. Dates the service writes are instants; dates of
observations stay texts, because they name a version. -/
namespace Neurobro.OwnerControls

open Agent (Err Time MessageRef ObservationKind refKey CapabilityGrant)
open Jobs (ToolContext)

/-- What the service takes from its platform: the hash, date parsing, random names, the
text of a number, case folding with and without the Unicode rules, and lower case. -/
structure Host where
  sha256 : String → String
  parseDate : String → Option Time
  uuid : Nat → String
  numberText : Rat → String
  fold : Char → Char
  canonicalize : Char → Char
  toLowerCase : String → String

/-- `rank` is the keyed order in which the store lists rows. -/
structure Options where
  host : Host
  rank : String → Nat
  accountId : String
  ownerId : String
  controlPeerId : String
  verifiesPeers : Bool := true
  proposalTtlMs : Option Int := none
  outreachTtlMs : Option Int := none
  readTtlMs : Option Int := none

def halfHour : Int := 30 * 60 * 1000

def Options.proposalTtl (o : Options) : Int := o.proposalTtlMs.getD halfHour
def Options.outreachTtl (o : Options) : Int := o.outreachTtlMs.getD halfHour
def Options.readTtl (o : Options) : Int := o.readTtlMs.getD (7 * 24 * 60 * 60 * 1000)

/-! ## Observations -/

structure Span where
  offset : Int
  length : Int
  kind : String
  deriving DecidableEq

structure Attachment where
  id : String
  name : String
  mimeType : String
  size : Option Rat := none
  deriving DecidableEq

structure Observation where
  id : String
  kind : ObservationKind := .message
  ref : MessageRef
  authorId : Option String := none
  outgoing : Bool
  text : Option String := none
  sentAt : String
  editedAt : Option String := none
  replyTo : Option MessageRef := none
  forwarded : Option Bool := none
  viaBot : Option Bool := none
  agentEffectId : Option String := none
  attachments : Option (List Attachment) := none
  authorityTextRanges : Option (List Span) := none
  contextRefs : Option (List String) := none
  deriving DecidableEq

def Span.native (span : Span) : Agent.TextSpan where
  offset := span.offset
  length := span.length
  kind := if span.kind = "quote" then .quote else if span.kind = "code" then .code else .other

def Observation.quoted (m : Observation) : Bool :=
  hasQuotedAuthorityText (m.authorityTextRanges.map fun spans => spans.map Span.native) m.text

/-- When the owner issued it: the edit, or else the message. -/
def Observation.issuedAt (h : Host) (m : Observation) : Option Time := h.parseDate (m.editedAt.getD m.sentAt)

def sameRef (a b : MessageRef) : Bool := refKey a = refKey b

/-- A field that is there only when it has a value. -/
def optionally (key : String) (value : Option Json) : List (String × Json) := value.toList.map fun v => (key,v)

def refJson (ref : MessageRef) : Json :=
  .obj ([("accountId",.str ref.accountId),("peerId",.str ref.peerId),("messageId",.str ref.messageId)] ++
    optionally "threadId" (ref.threadId.map .str))

def numberJson (n : Rat) : Json := .num (.finite n)

def Span.json (span : Span) : Json :=
  .obj [("offset",numberJson span.offset),("length",numberJson span.length),("kind",.str span.kind)]

def Attachment.json (a : Attachment) : Json :=
  .obj ([("id",.str a.id),("name",.str a.name),("mimeType",.str a.mimeType)] ++ optionally "size" (a.size.map numberJson))

/-- The parts of a message its version stands for. -/
def Observation.versionJson (m : Observation) : Json :=
  .obj ([("ref",refJson m.ref)] ++ optionally "authorId" (m.authorId.map .str) ++ [("outgoing",.bool m.outgoing)] ++
    optionally "forwarded" (m.forwarded.map .bool) ++ optionally "viaBot" (m.viaBot.map .bool) ++
    optionally "replyTo" (m.replyTo.map refJson) ++ optionally "text" (m.text.map .str) ++ [("sentAt",.str m.sentAt)] ++
    optionally "editedAt" (m.editedAt.map .str) ++
    optionally "authorityTextRanges" (m.authorityTextRanges.map fun spans => .arr (spans.map Span.json)) ++
    optionally "attachments" (m.attachments.map fun items => .arr (items.map Attachment.json)))

def ownerVersion (h : Host) (m : Observation) : String := h.sha256 (m.versionJson.stringify h.numberText)

def Observation.eventKey (h : Host) (m : Observation) : String :=
  h.sha256 (m.id ++ ":" ++ m.kind.text ++ ":" ++ ownerVersion h m)

def Observation.directive (h : Host) (m : Observation) : Option DirectOwnerDirective :=
  parseOwnerDirective h.canonicalize h.toLowerCase (m.text.getD "")

/-- The command prefix, which any room but the control room asks for. -/
def Observation.addressed (h : Host) (m : Observation) : Bool :=
  (Agent.afterPrefix h.fold "/бро" (m.text.getD "")).isSome

/-! ## Records -/

structure ResolvedOwnerPeer where
  accountId : String
  peerId : String
  label : String
  deriving DecidableEq

structure OwnerSourceEvidence where
  ref : MessageRef
  versionHash : String
  contextRefs : List String
  admittedAt : Time
  deriving DecidableEq

structure OwnerState extends OwnerSourceEvidence where
  revokedAt : Option Time := none

inductive PlanKind where
  | read
  | monitor
  deriving DecidableEq

structure SourcePlan where
  id : String
  ownerSource : OwnerSourceEvidence
  peers : List ResolvedOwnerPeer
  kind : PlanKind
  revokedAt : Option Time := none
  revokedPeers : List String := []
  boundTaskId : Option String := none

inductive PolicyState where
  | active
  | revoked
  deriving DecidableEq

structure MonitorPolicy where
  id : String
  taskId : String
  sourcePeerId : String
  label : String
  revision : Nat := 1
  ownerSource : OwnerSourceEvidence
  state : PolicyState := .active
  kind : PlanKind
  createdAt : Time
  expiresAt : Option Time := none
  revokedAt : Option Time := none
  reason : Option String := none

structure RecipientEffect where
  operationId : String
  capability : String
  payloadHash : String
  deriving DecidableEq

structure RecipientApprovalSpec where
  id : String
  peerId : String
  payloadHash : String
  effects : Option (List RecipientEffect) := none
  deriving DecidableEq

/-- One exact batch, as the owner is shown it. -/
structure Batch where
  objectId : String
  batchRevision : Int
  manifestHash : String
  recipients : List RecipientApprovalSpec
  deriving DecidableEq

/-- What the owner is asked to accept. -/
inductive Subject where
  | sources (sources : List ResolvedOwnerPeer) (monitor : Bool)
  | outreach (batch : Batch)
  deriving DecidableEq

inductive ProposalState where
  | pending
  | accepted
  | rejected
  | expired
  deriving DecidableEq

structure OwnerProposalPublicationPart where
  effectId : String
  payloadHash : String
  artifactId : Option String := none
  deriving DecidableEq

inductive PublicationState where
  | notPublished
  | pending
  | verified
  | failed
  | unknown
  deriving DecidableEq

inductive PublicationStage where
  | preparing
  | manifest
  | card
  deriving DecidableEq

structure OwnerProposalPublication where
  state : PublicationState
  stage : PublicationStage
  updatedAt : String
  reason : Option String := none
  manifest : Option OwnerProposalPublicationPart := none
  card : Option OwnerProposalPublicationPart := none
  deriving DecidableEq

/-- The number of a drawn name; its text comes from the platform. -/
abbrev Name := Nat

structure OwnerScopeProposal where
  id : Name
  subject : Subject
  context : ToolContext
  state : ProposalState := .pending
  title : String
  selectedRecipientIds : Option (List String) := none
  cardRef : Option MessageRef := none
  publication : Option OwnerProposalPublication := none
  expiresAt : Time
  createdAt : Time
  receiptId : Option Name := none
  deriving DecidableEq

structure OwnerApprovalReceipt where
  id : Name
  context : ToolContext
  ownerSource : OwnerSourceEvidence
  batch : Batch
  selectedRecipientIds : List String
  expiresAt : Time
  revokedAt : Option Time := none
  deriving DecidableEq

inductive Disposition where
  | none
  | sourcePlan
  | accepted
  | rejected
  | revoked
  | ambiguous
  deriving DecidableEq

structure OwnerEventResult where
  disposition : Disposition
  proposal : Option OwnerScopeProposal := none
  receipt : Option OwnerApprovalReceipt := none
  reason : Option String := none
  affectedTaskIds : List String := []
  deriving DecidableEq

def ambiguous (reason : String) : OwnerEventResult := { disposition := .ambiguous, reason := some reason }

/-! ## Inputs -/

structure SourceScopeProposalInput where
  context : ToolContext
  sources : List ResolvedOwnerPeer
  monitor : Bool
  title : Option String := none
  expiresAt : Option String := none

structure OutreachApprovalProposalInput where
  context : ToolContext
  batch : Batch
  title : Option String := none
  expiresAt : Option String := none

structure OwnerEffectRequest where
  capability : String
  resource : String
  payload : Json
  id : Option String := none

structure OwnerAuthorityPreparation where
  capabilities : List CapabilityGrant
  /-- Left as it is, cleared or set. -/
  expiresAt : Option (Option Time)

structure Grant where
  id : String
  taskId : String
  revision : Int
  expiresAt : Option (Option Time) := none
  revokedAt : Option Time := none

structure TaskIntent where
  id : String
  ownerId : String
  accountId : String
  source : MessageRef
  revision : Int
  routePeerId : String
  contextRefs : List String
  grantId : String
  controlOnly : Bool := false

def sameIntent (context : ToolContext) (intent : TaskIntent) : Bool :=
  context.taskId = intent.id && context.intentRevision = intent.revision

/-- What the agent around the service would answer just now. -/
structure Surroundings where
  taskIntent : String → Option TaskIntent
  taskActive : String → Bool
  validateAuthority : ToolContext → Except Err Unit
  baseCapabilities : TaskIntent → List CapabilityGrant
  grant : String → Option Grant
  task : String → Option TaskIntent
  grantBaseline : String → Option Time
  ownOutput : String → Bool

def readCapabilities : List String :=
  ["telegram.history","telegram.search","telegram.message.get","telegram.context","telegram.file.get",
    "telegram.participants","telegram.poll.results","telegram.reactions.get","telegram.bot.buttons",
    "telegram.schedule.list"]

/-! ## Checks on single values -/

def assertPeer (o : Options) (peer : ResolvedOwnerPeer) : Except Err ResolvedOwnerPeer :=
  if peer.accountId ≠ o.accountId || peer.peerId = "" || utf16Length peer.peerId > 128 || peer.label = "" ||
      utf16Length peer.label > 1024 then
    .error (.authority "Trusted resolver returned a misbound peer")
  else .ok peer

/-- One peer for each identifier, at its first place and as it was resolved last. -/
def uniquePeers (peers : List ResolvedOwnerPeer) : List ResolvedOwnerPeer :=
  (peers.map ResolvedOwnerPeer.peerId).eraseDups.filterMap fun id => peers.reverse.find? fun peer => peer.peerId = id

def isHash (s : String) : Bool :=
  s.toList.length = 64 && s.toList.all fun c => ('a' ≤ c && c ≤ 'f') || Agent.isDigit c

def Batch.operation (h : Host) (b : Batch) (recipient : String) : String :=
  "outreach:" ++ b.objectId ++ ":revision:" ++ h.numberText b.batchRevision ++ ":recipient:" ++ recipient

/-- Attachments of a recipient are numbered after its own operation. -/
def attachmentOperation (operation : String) (id : String) : Bool :=
  let start := operation ++ ":attachment:"
  start.toList.isPrefixOf id.toList && (Agent.numeral? (String.ofList (id.toList.drop start.toList.length))).isSome

def RecipientEffect.bound (operation : String) (recipient : RecipientApprovalSpec) (e : RecipientEffect) : Bool :=
  isHash e.payloadHash &&
    ((e.capability = "telegram.send" && e.operationId = operation && e.payloadHash = recipient.payloadHash) ||
      (e.capability = "telegram.media.send" && attachmentOperation operation e.operationId))

def RecipientApprovalSpec.bound (h : Host) (b : Batch) (r : RecipientApprovalSpec) : Bool :=
  r.effects.all fun effects => !effects.isEmpty && effects.length ≤ 11 &&
    decide (effects.map RecipientEffect.operationId).Nodup && effects.all (·.bound (b.operation h r.id) r)

def maxSafeInteger : Int := 9007199254740991

def checkBatch (h : Host) (b : Batch) : Except Err Unit :=
  if b.objectId = "" || b.batchRevision < 1 || b.batchRevision > maxSafeInteger || !isHash b.manifestHash ||
      b.recipients.isEmpty || b.recipients.length > 100 || !decide (b.recipients.map RecipientApprovalSpec.id).Nodup ||
      b.recipients.any (fun r => r.id = "" || r.peerId = "" || !isHash r.payloadHash) then
    .error (.error "Invalid immutable outreach approval proposal")
  else if !b.recipients.all (·.bound h b) then .error (.error "Invalid immutable outreach operation binding")
  else .ok ()

/-- At most so many code units; a pair cut in half is dropped. -/
def truncated (limit : Nat) (s : String) : String := String.ofList (go limit s.toList)
where
  go : Nat → List Char → List Char
  | _,[] => []
  | left,c :: cs => if (utf16 c).length ≤ left then c :: go (left - (utf16 c).length) cs else []

end Neurobro.OwnerControls
