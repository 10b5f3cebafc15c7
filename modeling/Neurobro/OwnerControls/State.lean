import Neurobro.Data.Table
import Neurobro.OwnerControls.Records

/-! The registry of owner authority: what can be read off it, and its commits. A store
transaction, with the checks made in the same segment, is one commit; every other write
is one of its own. -/
namespace Neurobro.OwnerControls

open Agent (Err Time MessageRef refKey CapabilityGrant)
open Jobs (ToolContext)

/-- `fresh` numbers the next name to be drawn. -/
structure State where
  sources : Table String OwnerState := ∅
  events : Table String OwnerEventResult := ∅
  plans : Table String SourcePlan := ∅
  policies : Table String MonitorPolicy := ∅
  proposals : Table Name OwnerScopeProposal := ∅
  receipts : Table Name OwnerApprovalReceipt := ∅
  fresh : Name := 0
  around : Surroundings
  now : Time

variable (o : Options) (s : State)

namespace State

/-! ## Readings -/

def plansList : List SourcePlan := s.plans.list o.rank
def policiesList : List MonitorPolicy := s.policies.list o.rank
def proposalsList : List OwnerScopeProposal := s.proposals.list fun n => o.rank (o.host.uuid n)
def receiptsList : List OwnerApprovalReceipt := s.receipts.list fun n => o.rank (o.host.uuid n)

/-- A deadline that is not there never passes; one that does not parse has passed. -/
def alive (deadline : Option (Option Time)) : Bool := deadline.all fun at? => at?.any (· > s.now)

def taskActive (taskId : String) : Bool :=
  (s.around.taskIntent taskId).any fun intent => (s.around.grant intent.grantId).any fun grant =>
    grant.taskId = taskId && grant.revokedAt.isNone && s.alive grant.expiresAt && s.around.taskActive taskId

def directOwner (m : Observation) : Bool :=
  m.ref.accountId = o.accountId && m.authorId = some o.ownerId && m.outgoing && !m.forwarded.getD false &&
    !m.viaBot.getD false && m.agentEffectId.all (· = "") && !s.around.ownOutput (refKey m.ref)

def evidence (m : Observation) : OwnerSourceEvidence where
  ref := m.ref
  versionHash := ownerVersion o.host m
  contextRefs := m.contextRefs.getD []
  admittedAt := s.now

def sourceActive (e : OwnerSourceEvidence) : Bool :=
  (s.sources.get (refKey e.ref)).any fun current => current.revokedAt.isNone && current.versionHash = e.versionHash

def commandFresh (m : Observation) : Bool :=
  (m.issuedAt o.host).any fun issuedAt => issuedAt ≤ s.now + 60000 && s.now - issuedAt ≤ o.proposalTtl

def policyActive (policy : MonitorPolicy) : Bool :=
  policy.state = .active && s.alive (policy.expiresAt.map some) && s.sourceActive policy.ownerSource &&
    s.taskActive policy.taskId

def getMonitorPolicies (taskId : Option String) : List MonitorPolicy :=
  (s.policiesList o).filter fun policy =>
    policy.kind = .monitor && taskId.all (policy.taskId = ·) && s.policyActive policy

def getReadPeers (taskId : String) : List String :=
  (((s.policiesList o).filter fun policy => policy.taskId = taskId && s.policyActive policy).map
    MonitorPolicy.sourcePeerId).eraseDups

def contextReadScopes (taskId : String) : List String := (s.getReadPeers o taskId).map fun peer => "chat:" ++ peer

def receiptActive (intent : TaskIntent) (receipt : OwnerApprovalReceipt) : Bool :=
  sameIntent receipt.context intent && receipt.revokedAt.isNone && receipt.expiresAt > s.now &&
    s.sourceActive receipt.ownerSource

def activeReceipts (taskId : String) : List OwnerApprovalReceipt :=
  (s.receiptsList o).filter fun receipt =>
    (s.around.taskIntent taskId).any (s.receiptActive · receipt) && s.taskActive taskId

def proposal (id : Name) : Except Err OwnerScopeProposal :=
  match s.proposals.get id with
  | some proposal => .ok proposal
  | none => .error (.error "Unknown owner scope proposal")

def listProposals (context : ToolContext) : Except Err (List OwnerScopeProposal) := do
  s.around.validateAuthority context
  .ok ((s.proposalsList o).filter fun p =>
    p.context.taskId = context.taskId && p.context.intentRevision = context.intentRevision)

/-- The grant epoch may have changed since, never the task and its intention. -/
def validateProposalAuthority (proposal : OwnerScopeProposal) : Except Err Unit :=
  let refused : Except Err Unit := .error (.authority "Proposal no longer belongs to a current owner task")
  match s.around.taskIntent proposal.context.taskId with
  | none => refused
  | some intent =>
    match s.around.grant intent.grantId with
    | none => refused
    | some grant =>
      if !sameIntent proposal.context intent || !s.taskActive intent.id then refused
      else s.around.validateAuthority { proposal.context with grantId := grant.id, grantRevision := grant.revision }

end State

/-! ## External effects -/

def sendCapabilities : List String := ["telegram.send","telegram.media.send"]

/-- A reply of a control-only record to the control room. -/
def controlReply (context : ToolContext) (request : OwnerEffectRequest) (intent : TaskIntent) : Bool :=
  intent.controlOnly && intent.ownerId = o.ownerId && intent.accountId = o.accountId && sameIntent context intent &&
    intent.routePeerId = o.controlPeerId && request.capability = "telegram.send" &&
    request.resource = o.controlPeerId

/-- The receipt covers this piece: the text of a recipient, or one of its listed effects. -/
def RecipientApprovalSpec.covers (batch : Batch) (request : OwnerEffectRequest) (payloadHash : String)
    (item : RecipientApprovalSpec) : Bool :=
  item.peerId = request.resource &&
    ((request.capability = "telegram.send" && item.payloadHash = payloadHash &&
        request.id = some (batch.operation o.host item.id)) ||
      item.effects.any fun effects => effects.any fun effect =>
        some effect.operationId = request.id && effect.capability = request.capability &&
          effect.payloadHash = payloadHash)

def OwnerApprovalReceipt.covers (request : OwnerEffectRequest) (payloadHash : String)
    (receipt : OwnerApprovalReceipt) : Bool :=
  receipt.batch.recipients.any (·.covers o receipt.batch request payloadHash)

namespace State

def effectIntent (taskId : String) : Option TaskIntent := (s.around.taskIntent taskId).or (s.around.task taskId)

def payloadHash (payload : Json) : Except Err String :=
  ((payload.canonicalJson o.host.numberText).mapError .error).map o.host.sha256

/-- External sends beyond the control room and the route of the task. -/
def validateSend (request : OwnerEffectRequest) (intent : TaskIntent) : Except Err Unit :=
  if !sendCapabilities.contains request.capability then .ok ()
  else if request.resource = o.controlPeerId || request.resource = intent.routePeerId then .ok ()
  else do
    let hash ← payloadHash o request.payload
    if (s.activeReceipts o intent.id).any (·.covers o request hash) then .ok ()
    else .error (.authority "External recipient/payload was not selected in a current concrete owner batch")

def validateEffect (context : ToolContext) (request : OwnerEffectRequest) : Except Err Unit :=
  match s.effectIntent context.taskId with
  | none => .error (.authority "Owner task authority is not current")
  | some intent =>
    if controlReply o context request intent then .ok ()
    else if !sameIntent context intent || !s.taskActive context.taskId then
      .error (.authority "Owner task authority is not current")
    else s.validateSend o request intent

/-- Revoked dynamic source reads fail at once, also under tokens issued before. -/
def validateResource (context : ToolContext) (capability resource : String) : Except Err Unit :=
  if !readCapabilities.contains capability && capability ≠ "telegram.read" then .ok ()
  else
    let policies := (s.policiesList o).filter fun p => p.taskId = context.taskId && p.sourcePeerId = resource
    if !policies.isEmpty && !policies.any s.policyActive then
      .error (.authority "Owner source policy is revoked or expired")
    else .ok ()

end State

/-! ## Capabilities -/

/-- The first grant of a capability gains resources; without one, a grant is added. -/
def widen (capability : String) (extra : List String) : List CapabilityGrant → List CapabilityGrant
  | [] => [⟨capability,extra.eraseDups⟩]
  | grant :: rest =>
    if grant.capability = capability then ⟨grant.capability,(grant.resources ++ extra).eraseDups⟩ :: rest
    else grant :: widen capability extra rest

def RecipientApprovalSpec.sendsMedia (item : RecipientApprovalSpec) : Bool :=
  item.effects.any fun effects => effects.any fun effect => effect.capability = "telegram.media.send"

namespace State

def preparation (intent : TaskIntent) : OwnerAuthorityPreparation :=
  let recipients := (s.activeReceipts o intent.id).flatMap fun receipt => receipt.batch.recipients
  let media := (recipients.filter RecipientApprovalSpec.sendsMedia).map RecipientApprovalSpec.peerId
  let owned := ["owner.sources.propose","owner.sources.inspect"].foldl
    (fun grants capability => widen capability ["owner-controls"] grants) (s.around.baseCapabilities intent)
  let reading := readCapabilities.foldl (fun grants capability => widen capability (s.getReadPeers o intent.id) grants) owned
  let sending := widen "telegram.send" (recipients.map RecipientApprovalSpec.peerId) reading
  { capabilities :=
      if media.isEmpty && !sending.any (fun grant => grant.capability = "telegram.media.send") then sending
      else widen "telegram.media.send" media sending
    expiresAt :=
      if !(s.getMonitorPolicies o (some intent.id)).isEmpty then some none
      else (s.around.grantBaseline intent.grantId).map some }

/-! ## Commits -/

def putPlan (plan : SourcePlan) : State := { s with plans := s.plans.put plan.id plan }
def putProposal (proposal : OwnerScopeProposal) : State := { s with proposals := s.proposals.put proposal.id proposal }

end State

def MonitorPolicy.revoke (now : Time) (reason : String) (policy : MonitorPolicy) : MonitorPolicy :=
  { policy with state := .revoked, revokedAt := some now, reason := some reason, revision := policy.revision + 1 }

/-- A policy that the test meets is revoked, unless it has been. -/
def MonitorPolicy.revokeIf (now : Time) (reason : String) (test : MonitorPolicy → Bool) (policy : MonitorPolicy) :
    MonitorPolicy := if test policy && policy.state = .active then policy.revoke now reason else policy

def SourcePlan.names (plan : SourcePlan) (peerId : String) : Bool := plan.peers.any fun peer => peer.peerId = peerId

def SourcePlan.revokePeer (peerId : String) (plan : SourcePlan) : SourcePlan :=
  if plan.names peerId then { plan with revokedPeers := (plan.revokedPeers ++ [peerId]).eraseDups } else plan

def SourcePlan.withdraw (ref : MessageRef) (now : Time) (plan : SourcePlan) : SourcePlan :=
  if sameRef plan.ownerSource.ref ref then { plan with revokedAt := some now } else plan

def OwnerApprovalReceipt.withdraw (ref : MessageRef) (now : Time) (receipt : OwnerApprovalReceipt) :
    OwnerApprovalReceipt := if sameRef receipt.ownerSource.ref ref then { receipt with revokedAt := some now } else receipt

namespace State

/-- One owner message is withdrawn: its source, policies, plans and receipts. -/
def revokeOwnerSource (ref : MessageRef) (reason : String) : State :=
  { s with
    sources := match s.sources.get (refKey ref) with
      | some current => s.sources.put (refKey ref) { current with revokedAt := some s.now }
      | none => s.sources
    policies := s.policies.mapRows (MonitorPolicy.revokeIf s.now reason fun p => sameRef p.ownerSource.ref ref)
    plans := s.plans.mapRows (SourcePlan.withdraw ref s.now)
    receipts := s.receipts.mapRows (OwnerApprovalReceipt.withdraw ref s.now) }

/-- One peer is withdrawn: its policies, and its place in every stored plan. -/
def revokeSource (peerId reason : String) : State :=
  { s with
    policies := s.policies.mapRows (MonitorPolicy.revokeIf s.now reason fun p => p.sourcePeerId = peerId)
    plans := s.plans.mapRows (SourcePlan.revokePeer peerId) }

/-! ## Plans become policies -/

def policyId (task plan peer : String) : String := o.host.sha256 (task ++ ":" ++ plan ++ ":" ++ peer)

def newPolicy (intent : TaskIntent) (plan : SourcePlan) (peer : ResolvedOwnerPeer) : MonitorPolicy where
  id := policyId o intent.id plan.id peer.peerId
  taskId := intent.id
  sourcePeerId := peer.peerId
  label := peer.label
  ownerSource := plan.ownerSource
  kind := plan.kind
  createdAt := s.now
  expiresAt := if plan.kind = .read then some (plan.ownerSource.admittedAt + o.readTtl) else none

/-- A plan still serves this task. -/
def bindable (intent : TaskIntent) (plan : SourcePlan) : Bool :=
  plan.revokedAt.isNone && s.sourceActive plan.ownerSource && plan.boundTaskId.all (· = intent.id)

def bindTask (plan : SourcePlan) (taskId : String) : State := s.putPlan { plan with boundTaskId := some taskId }

def bindPeer (intent : TaskIntent) (plan : SourcePlan) (peer : ResolvedOwnerPeer) : State :=
  let policy := s.newPolicy o intent plan peer
  if plan.revokedPeers.contains peer.peerId || (s.policies.get policy.id).isSome then s
  else { s with policies := s.policies.put policy.id policy }

def bindPlan (intent : TaskIntent) (plan : SourcePlan) : State :=
  if s.bindable intent plan then
    let bound := if plan.boundTaskId.isNone then s.bindTask plan intent.id else s
    plan.peers.foldl (fun s peer => s.bindPeer o intent plan peer) bound
  else s

/-! ## Proposals -/

def deadline (expiresAt : Option String) : Option Time :=
  match expiresAt.filter (· ≠ "") with
  | some text => o.host.parseDate text
  | none => some (s.now + o.proposalTtl)

/-- A proposal is stored under a fresh name. -/
def createProposal (context : ToolContext) (subject : Subject) (title : String) (expiresAt : Option String) :
    Except Err (OwnerScopeProposal × State) :=
  let invalid : Except Err (OwnerScopeProposal × State) := .error (.error "Proposal deadline is invalid")
  match s.deadline o expiresAt with
  | none => invalid
  | some expiresAt =>
    if expiresAt ≤ s.now || expiresAt > s.now + 24 * 60 * 60 * 1000 then invalid
    else
      let proposal : OwnerScopeProposal :=
        { id := s.fresh, subject, context, title := truncated 1024 title, expiresAt, createdAt := s.now }
      .ok (proposal,{ s with fresh := s.fresh + 1 }.putProposal proposal)

def proposeSources (input : SourceScopeProposalInput) (sources : List ResolvedOwnerPeer) :
    Except Err (OwnerScopeProposal × State) := do
  s.around.validateAuthority input.context
  s.createProposal o input.context (.sources (uniquePeers sources) input.monitor)
    (input.title.getD "Выбранные источники") input.expiresAt

def proposeApproval (input : OutreachApprovalProposalInput) : Except Err (OwnerScopeProposal × State) := do
  s.around.validateAuthority input.context
  checkBatch o.host input.batch
  s.createProposal o input.context (.outreach input.batch) (input.title.getD "Выбранная отправка") input.expiresAt

/-- The trusted host records the private message of a card; its identity never changes. -/
def registerCard (id : Name) (ref : MessageRef) : Except Err (Unit × State) := do
  let proposal ← s.proposal id
  if ref.accountId ≠ o.accountId || ref.peerId ≠ o.controlPeerId || !s.around.ownOutput (refKey ref) then
    .error (.authority "Approval card must be a recorded private agent output")
  else if proposal.cardRef.any (fun card => !sameRef card ref) then
    .error (.authority "Proposal card identity is immutable")
  else .ok ((),s.putProposal { proposal with cardRef := some ref })

end State

/-- A recorded part is recorded again as it was. -/
def keepsPart (old next : Option OwnerProposalPublicationPart) : Bool := old.all fun part => next = some part

def OwnerProposalPublication.keeps (next old : OwnerProposalPublication) : Bool :=
  keepsPart old.manifest next.manifest && keepsPart old.card next.card

namespace State

def recordPublication (id : Name) (publication : OwnerProposalPublication) : Except Err (Unit × State) := do
  let proposal ← s.proposal id
  if proposal.publication.any (fun old => !publication.keeps old) then
    .error (.authority "Proposal publication effect identity is immutable")
  else if proposal.publication.any (·.state = .verified) && publication.state ≠ .verified then
    .error (.authority "Verified proposal publication cannot be downgraded")
  else .ok ((),s.putProposal { proposal with publication := some publication })

/-! ## Decisions -/

/-- What every decision asks of the proposal as it stands and of the owner's message. -/
def confirmable (current : OwnerScopeProposal) (message : Observation) (e : OwnerSourceEvidence) : Bool :=
  current.state = .pending && current.expiresAt > s.now && s.commandFresh o message && s.sourceActive e

def overdue : OwnerEventResult :=
  ambiguous "Предложение устарело, отозвано или уже рассмотрено. Новое разрешение не сохранено."

def proposalPlan (proposal : OwnerScopeProposal) (e : OwnerSourceEvidence) (peers : List ResolvedOwnerPeer)
    (monitor : Bool) : SourcePlan where
  id := "proposal:" ++ o.host.uuid proposal.id
  ownerSource := e
  peers
  kind := if monitor then .monitor else .read

/-- A plan is stored and bound to the task of its proposal. -/
def adoptPlan (taskId : String) (plan : SourcePlan) : State :=
  match s.around.taskIntent taskId with
  | some intent => (s.putPlan plan).bindPlan o intent plan
  | none => s.putPlan plan

def acceptSources (message : Observation) (e : OwnerSourceEvidence) (id : Name) :
    Except Err (OwnerEventResult × State) := do
  let current ← s.proposal id
  if !s.confirmable o current message e then .ok (overdue,s)
  else do
    s.validateProposalAuthority current
    match current.subject with
    | .outreach _ => .error (.error "plan.peers is not iterable")
    | .sources peers monitor =>
      let accepted := { current with state := .accepted }
      .ok ({ disposition := .accepted, proposal := some accepted },
        (s.adoptPlan o current.context.taskId (proposalPlan o current e peers monitor)).putProposal accepted)

def newReceipt (e : OwnerSourceEvidence) (proposal : OwnerScopeProposal) (batch : Batch) (selected : List String) :
    OwnerApprovalReceipt where
  id := s.fresh
  context := proposal.context
  ownerSource := e
  batch := { batch with recipients := batch.recipients.filter fun item => selected.contains item.id }
  selectedRecipientIds := selected
  expiresAt := min proposal.expiresAt (s.now + o.outreachTtl)

/-- `proposal` is the copy the confirmation began with; the stored one decides. -/
def acceptOutreach (message : Observation) (e : OwnerSourceEvidence) (proposal : OwnerScopeProposal) (batch : Batch)
    (selected : List String) : Except Err (OwnerEventResult × State) := do
  let current ← s.proposal proposal.id
  if !s.confirmable o current message e then
    .error (.authority "Предложение уже рассмотрено, устарело или отозвано.")
  else do
    s.validateProposalAuthority current
    let receipt := s.newReceipt o e proposal batch selected
    let accepted := { current with
      state := .accepted, receiptId := some receipt.id, selectedRecipientIds := some selected }
    .ok ({ disposition := .accepted, proposal := some accepted, receipt := some receipt },
      { s with fresh := s.fresh + 1, receipts := s.receipts.put receipt.id receipt }.putProposal accepted)

end State

/-- `message` is the owner's message that a plan or an unsubscription comes from. -/
inductive Cmd where
  | revokeOwnerSource (ref : MessageRef) (reason : String)
  | revokeSource (peerId reason : String) (message : Option Observation)
  | putSource (e : OwnerSourceEvidence)
  | putEvent (key : String) (result : OwnerEventResult)
  | putPlan (plan : SourcePlan) (message : Observation)
  | bindTask (plan : SourcePlan) (taskId : String)
  | bindPeer (intent : TaskIntent) (plan : SourcePlan) (peer : ResolvedOwnerPeer)
  | proposeSources (input : SourceScopeProposalInput) (sources : List ResolvedOwnerPeer)
  | proposeApproval (input : OutreachApprovalProposalInput)
  | registerCard (id : Name) (ref : MessageRef)
  | recordPublication (id : Name) (publication : OwnerProposalPublication)
  | rejectProposal (proposal : OwnerScopeProposal)
  | acceptSources (message : Observation) (e : OwnerSourceEvidence) (id : Name)
  | acceptOutreach (message : Observation) (e : OwnerSourceEvidence) (proposal : OwnerScopeProposal) (batch : Batch)
    (selected : List String)

@[reducible] def Cmd.Result : Cmd → Type
  | .proposeSources _ _ | .proposeApproval _ => Except Err OwnerScopeProposal
  | .registerCard _ _ | .recordPublication _ _ => Except Err Unit
  | .acceptSources _ _ _ | .acceptOutreach _ _ _ _ _ => Except Err OwnerEventResult
  | _ => Unit

/-- A transaction that throws leaves the store as it was. -/
def transaction {α : Type} (s : State) (r : Except Err (α × State)) : Except Err α × State :=
  match r with
  | .ok (a,s') => (.ok a,s')
  | .error e => (.error e,s)

def exec (o : Options) : (cmd : Cmd) → State → cmd.Result × State
  | .revokeOwnerSource ref reason,s => ((),s.revokeOwnerSource ref reason)
  | .revokeSource peerId reason _,s => ((),s.revokeSource peerId reason)
  | .putSource e,s => ((),{ s with sources := s.sources.put (refKey e.ref) ⟨e,none⟩ })
  | .putEvent key result,s => ((),{ s with events := s.events.put key result })
  | .putPlan plan _,s => ((),s.putPlan plan)
  | .bindTask plan taskId,s => ((),s.bindTask plan taskId)
  | .bindPeer intent plan peer,s => ((),s.bindPeer o intent plan peer)
  | .proposeSources input sources,s => transaction s (s.proposeSources o input sources)
  | .proposeApproval input,s => transaction s (s.proposeApproval o input)
  | .registerCard id ref,s => transaction s (s.registerCard o id ref)
  | .recordPublication id publication,s => transaction s (s.recordPublication id publication)
  | .rejectProposal proposal,s => ((),s.putProposal { proposal with state := .rejected })
  | .acceptSources message e id,s => transaction s (s.acceptSources o message e id)
  | .acceptOutreach message e proposal batch selected,s =>
    transaction s (s.acceptOutreach o message e proposal batch selected)

end Neurobro.OwnerControls
