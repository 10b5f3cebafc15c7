import Neurobro.Agent.State

/-! The durable commits of the broker and the controller, one definition for each
transaction or single write of the source. A transaction that throws leaves the
state as it was. -/
namespace Neurobro.Agent

/-- Where the source reaches a point that later steps refer back to. -/
inductive Note where
  | handled (observation : Observation) (result : IngestResult)

structure CorrectionRequest where
  taskId : TaskId
  instruction : String
  route : Option Route := none
  changeId : Option EventKey := none
  authorizedAt : Stamp
  contextRefresh : Bool := false
  observation : Option Observation := none

/-- The intention after a correction's transaction; `applied` is false when the
change had already been applied. -/
structure Corrected where
  intent : TaskIntent
  applied : Bool

structure Settled where
  effect : Effect
  written : Bool

namespace State

variable (o : Options) (s : State)

/-! ## Broker -/

def issue (context : ToolContext) : Except Err (Token × State) := do
  -- Reservation precedes input preparation: the host's own check waits for `resolve`.
  let _ ← s.validateContext context false
  pure (s.fresh,{ s with
    fresh := s.fresh + 1
    store.contexts := s.store.contexts.put s.fresh { context,expiresAt := s.now + o.contextTtl } })

def boundRecord (record : ContextRecord) (runId : RunId) : ContextRecord :=
  { record with context := { record.context with runId } }

def bindToken (token : Token) (binding : RunBinding) : Except Err (Unit × State) := do
  let record ← s.resolve token
  if record.context.taskId ≠ binding.taskId ∨ record.context.intentRevision ≠ binding.intentRevision then
    .error (.authority "Run binding does not belong to token")
  else .ok ((),{ s with store.contexts := s.store.contexts.put token (boundRecord record binding.runId) })

def revokeToken (token : Token) : State :=
  match s.store.contexts.get token with
  | none => s
  | some record =>
    if record.revokedAt.isSome then s
    else { s with store.contexts := s.store.contexts.put token { record with revokedAt := some s.now } }

def cancelledEffect (e : Effect) : Effect :=
  { e with
    state := .cancelled
    updatedAt := s.now
    reason := some "Task authority revoked before dispatch" }

/-- Current grant and revision are authoritative; only prepared effects change here. -/
def revokeTask (taskId : TaskId) : State :=
  { s with store.effects := s.store.effects.mapRows fun e =>
      if e.taskId = taskId ∧ e.state = .prepared then s.cancelledEffect e else e }

def cancelPrepared (id : EffectId) : State :=
  match s.store.effects.get id with
  | none => s
  | some e =>
    if e.state = .prepared then { s with store.effects := s.store.effects.put id (s.cancelledEffect e) } else s

def newEffect (context : ToolContext) (request : EffectRequest) (id : EffectId) (payloadHash : String) :
    Effect :=
  { id,payloadHash
    taskId := context.taskId
    intentRevision := context.intentRevision
    grantId := context.grantId
    grantRevision := context.grantRevision
    capability := request.capability
    resource := request.resource
    payload := request.payload
    state := .prepared
    createdAt := s.now
    updatedAt := s.now }

/-- The claim: authority is checked again and the record must be new. -/
def claim (context : ToolContext) (request : EffectRequest) (id : EffectId) (payloadHash : String) :
    Except Err (Effect × State) := do
  let _ ← s.validateContext context
  s.validateResource o context request.capability request.resource
  s.validateEffect context request
  match s.store.effects.get id with
  | some _ => .error (.authority "Effect was concurrently prepared")
  | none =>
    let effect := { s.newEffect context request id payloadHash with state := .dispatching }
    .ok (effect,{ s with store.effects := s.store.effects.put id effect })

def settledState : SettledState → Option EffectState
  | .verified => some .verified
  | .failed => some .failed
  | .unknown => some .unknown
  | .unrecognized _ => none

/-- A final success must not inherit a prior pending or interrupted diagnostic. -/
def settledEffect (effect : Effect) (result : EffectResult) (state : EffectState) : Effect :=
  { effect with
    state
    receipt := result.receipt <|> effect.receipt
    reason := if result.state = .verified then result.reason else result.reason <|> effect.reason
    updatedAt := s.now }

def settle (effect : Effect) (result : EffectResult) : Except Err (Settled × State) :=
  match settledState result.state with
  | none => .error (.error "Invalid effect settlement")
  | some state =>
    match (s.store.effects.get effect.id).filter (·.state = .verified) with
    | some existing => .ok (⟨existing,false⟩,s)
    | none =>
      let settled := s.settledEffect effect result state
      .ok (⟨settled,true⟩,{ s with store.effects := s.store.effects.put effect.id settled })

def interruptedEffect (stored : Effect) : Effect :=
  { stored with
    state := .unknown
    reason := some (stored.reason.getD "Interrupted during dispatch")
    updatedAt := s.now }

/-- Recovery writes the row it listed, whatever the record holds by now. -/
def interrupt (stored : Effect) : Effect × State :=
  (s.interruptedEffect stored,
    { s with store.effects := s.store.effects.put stored.id (s.interruptedEffect stored) })

def captureOwnReceipt (effect : Effect) : State :=
  match effect.receipt with
  | some (.obj fields) =>
    if !isSend effect.capability then s
    else
      let receipt := Json.obj fields
      let peerId := ((receipt.field? "peerId").bind Json.str?).getD effect.resource
      match (receipt.field? "messageId").bind Json.str? with
      | none => s
      | some messageId =>
        let ref := ⟨o.accountId,peerId,messageId,(receipt.field? "threadId").bind Json.str?⟩
        let target := s.store.controlTargets.get effect.taskId
        let controlOnly := (s.store.tasks.get effect.taskId).any (·.controlOnly) && target.isNone
        let output : OwnOutput := { ref,controlOnly,taskId := target.getD effect.taskId,effectId := some effect.id }
        { s with store.ownOutputs := s.store.ownOutputs.put (refKey ref) output }
  | _ => s

/-! ## Grants -/

/-- A new grant of the intention's present revision; its deadline is also its baseline. -/
def makeGrant (intent : TaskIntent) : Grant × State :=
  let capabilities := match s.policy.capabilityPolicy with
    | some policy => policy intent
    | none => [⟨"telegram.read",[intent.source.peerId,o.privateRoute.peerId].eraseDups⟩,
        ⟨"telegram.send",[intent.route.peerId]⟩]
  let origin := if intent.route.peerId ≠ o.privateRoute.peerId then s.store.originDeadlines.get intent.id else none
  let expires := s.now + o.grantTtl
  let expiresAt := match origin with
    | some deadline => min expires deadline.expiresAt
    | none => expires
  ({ id := intent.grantId
     taskId := intent.id
     revision := intent.revision
     capabilities
     expiresAt := some expiresAt
     revokedAt := none },
    { s with store.grantBaselines := s.store.grantBaselines.put intent.grantId expiresAt })

/-- Older grants lost their deadline: it is reconstructed, and restart never renews it. -/
def grantBaseline (intent : TaskIntent) (grant : Grant) : Time × State :=
  match s.store.grantBaselines.get grant.id with
  | some saved => (saved,s)
  | none =>
    let origin := if intent.route.peerId ≠ o.privateRoute.peerId then s.store.originDeadlines.get intent.id else none
    let expires := grant.expiresAt.getD (intent.createdAt + o.grantTtl)
    let baseline := match origin with
      | some deadline => min expires deadline.expiresAt
      | none => expires
    (baseline,{ s with store.grantBaselines := s.store.grantBaselines.put grant.id baseline })

def preparedDeadline (baseline : Time) (prepared : Option PreparedAuthority) (current : Grant) :
    Except Err (Option Time) :=
  match prepared with
  | none => .ok current.expiresAt
  | some p => match p.expiresAt with
    | none => .ok (some baseline)
    | some none => .ok none
    | some (some none) => .error (.authority "Prepared authority deadline is invalid")
    | some (some (some time)) => .ok (some time)

/-- Narrow or renew the scope of the very grant that was read before preparation. -/
def refreshGrant (intent : TaskIntent) (grant : Grant) (baseline : Time)
    (prepared : Option PreparedAuthority) : Except Err (Unit × State) := do
  let actual ← s.requireTask intent.id
  let current ← s.requireGrant actual.grantId
  if actual.revision ≠ intent.revision ∨ current.id ≠ grant.id ∨ current.revision ≠ grant.revision ∨
      current.revokedAt.isSome then
    .error (.authority "Task changed during authority preparation")
  else
    let offered := (prepared.map (·.capabilities)).getD current.capabilities
    let capabilities := offered.map fun g => { g with
      resources := g.resources.filter fun r => s.originResourceAllowed o actual g.capability r }
    let expiresAt ← preparedDeadline baseline prepared current
    if current.capabilities ≠ capabilities ∨ expiresAt ≠ current.expiresAt then
      let refreshed := { current with
        revision := current.revision + 1
        capabilities
        expiresAt }
      .ok ((),{ s with store.grants := s.store.grants.put current.id refreshed })
    else .ok ((),s)

def withoutSend (peerId : PeerId) (g : CapabilityGrant) : CapabilityGrant :=
  if isSend g.capability then { g with resources := g.resources.filter (· ≠ peerId) } else g

def narrowedGrant (peerId : PeerId) (grant : Grant) : Grant :=
  { grant with
    capabilities := grant.capabilities.map (withoutSend peerId)
    revision := grant.revision + 1 }

def narrowGrant (taskId : TaskId) (peerId : PeerId) : Except Err (Unit × State) := do
  let intent ← s.requireTask taskId
  let grant ← s.requireGrant intent.grantId
  .ok ((),{ s with store.grants := s.store.grants.put grant.id (narrowedGrant peerId grant) })

/-! ## Controls -/

def journalChildStop (taskId : TaskId) (reason : String) (revision : Nat) : State :=
  let stop : ChildStop := { taskId,revision,state := .pending,reason := some reason }
  if o.onTaskStop then { s with store.childStops := s.store.childStops.put (taskId,revision) stop } else s

/-- The grant after a cancellation or a hold. -/
def revokedGrant (grant : Grant) : Grant :=
  { grant with
    revokedAt := some s.now
    revision := grant.revision + 1 }

def revokeGrant (grant : Grant) : State :=
  { s with store.grants := s.store.grants.put grant.id (s.revokedGrant grant) }

def putControl (taskId : TaskId) (control : Control) : State :=
  { s with store.controls := s.store.controls.put taskId control }

def cancelControl (taskId : TaskId) : Control :=
  { taskId,cancelledAt := some s.now,reason := some "Owner cancelled task; new effects revoked" }

def cancelTask (taskId : TaskId) : Except Err (Unit × State) := do
  let intent ← s.requireTask taskId
  let grant ← s.requireGrant intent.grantId
  .ok ((),(((s.revokeGrant grant).putControl taskId (s.cancelControl taskId)).revokeTask
    taskId).journalChildStop o taskId "Owner cancelled task" intent.revision)

def cancelledIn (taskId : TaskId) : Bool := (s.store.controls.get taskId).any (·.cancelledAt.isSome)

def holdControl (taskId : TaskId) (reason : String) (resumeWhenSettled : Bool) : Control :=
  { taskId,resumeWhenSettled,heldAt := some s.now,reason := some reason }

/-- A cancelled task is left alone; any other control is replaced. -/
def holdTask (taskId : TaskId) (reason : String) (resumeWhenSettled : Bool) : Except Err (Unit × State) := do
  let intent ← s.requireTask taskId
  if s.cancelledIn taskId then .ok ((),s)
  else
    let grant ← s.requireGrant intent.grantId
    let control := s.holdControl taskId reason resumeWhenSettled
    .ok ((),(((s.revokeGrant grant).revokeTask taskId).putControl taskId control).journalChildStop o taskId
      reason intent.revision)

/-! ## Tasks -/

/-- Owner provenance of a follow-up; a message already bound elsewhere is refused. -/
def linkFollowUp (taskId : TaskId) (observation : Option Observation) : Except Err State :=
  match observation with
  | none => .ok s
  | some obs =>
    if (s.taskForSource obs.ref).any (·.id ≠ taskId) then
      .error (.authority "Owner follow-up is already bound to another task")
    else .ok { s with
      store.sources := s.store.sources.put (refKey obs.ref) taskId
      store.taskOwnerChanges := s.store.taskOwnerChanges.put taskId ⟨obs.ref,obs.issuedAt⟩ }

def followUpRefs (observation : Option Observation) : List String :=
  match observation with
  | none => []
  | some obs => obs.contextRefs.getD [] ++ (obs.replyTo.map refKey).toList

def nextIntent (request : CorrectionRequest) (actual : TaskIntent) : TaskIntent :=
  { actual with
    instruction := if request.contextRefresh then actual.instruction
      else actual.instruction ++ "\n\nOwner correction: " ++ trim request.instruction
    contextRefs := (actual.contextRefs ++ followUpRefs request.observation).eraseDups
    artifactRefs := (actual.artifactRefs ++ (request.observation.bind (·.artifactRefs)).getD []).eraseDups
    revision := actual.revision + 1
    route := request.route.getD actual.route
    updatedAt := s.now
    grantId := s.fresh }

/-- An owner instruction that names a public route renews its reply deadline. -/
def renewOrigin (request : CorrectionRequest) : Except Err State :=
  match request.route with
  | none => .ok s
  | some route =>
    if request.contextRefresh ∨ route.peerId = o.privateRoute.peerId then .ok s
    else match request.authorizedAt with
      | none => .error (.error "Invalid time value")
      | some authorized =>
        .ok { s with
          store.originDeadlines := s.store.originDeadlines.put request.taskId
            { taskId := request.taskId
              peerId := some route.peerId
              expiresAt := authorized + o.originTtl }
          store.originReview := s.store.originReview.delete request.taskId }

/-- A context refresh keeps the scope and the deadlines of the grant it replaces. -/
def inheritGrant (intent : TaskIntent) (prior next : Grant) : Grant × State :=
  let based := s.grantBaseline o intent prior
  ({ next with
     capabilities := prior.capabilities
     expiresAt := prior.expiresAt },
    { based.2 with store.grantBaselines := based.2.store.grantBaselines.put next.id based.1 })

def correctionBarrier (taskId : TaskId) : Control :=
  { taskId,heldAt := some s.now,resumeWhenSettled := true
    reason := some "Correction saved; checking prior execution settlement" }

def noteChange (request : CorrectionRequest) : State :=
  match request.changeId with
  | some change => { s with store.appliedChanges := s.store.appliedChanges.put change request.taskId }
  | none => s

/-- A correction retires the present grant in the revision it has. -/
def retiredGrant (grant : Grant) : Grant := { grant with revokedAt := some s.now }

/-- Retire the present grant and draw the name of the next one. -/
def retireGrant (taskId : TaskId) (grant : Grant) : State :=
  let retired := { s with store.grants := s.store.grants.put grant.id (s.retiredGrant grant) }
  { retired.revokeTask taskId with fresh := s.fresh + 1 }

def correctedGrant (request : CorrectionRequest) (actual next : TaskIntent) (retired : Grant) :
    Grant × State :=
  let made := s.makeGrant o next
  if request.contextRefresh then made.2.inheritGrant o actual retired made.1 else made

/-- The barrier is saved with the new intention: a crash cannot open a second run. -/
def installCorrection (request : CorrectionRequest) (actual next : TaskIntent) (granted : Grant) : State :=
  let s := { s with
    store.tasks := s.store.tasks.put request.taskId next
    store.grants := s.store.grants.put next.grantId granted }
  let s := s.putControl request.taskId (s.correctionBarrier request.taskId)
  let s := s.journalChildStop o request.taskId "Parent task corrected" actual.revision
  let correction : Correction :=
    { taskId := request.taskId
      revision := next.revision
      instruction := request.instruction
      kind := if request.contextRefresh then .contextRefresh else .ownerCorrection
      createdAt := next.updatedAt
      ownerSource := request.observation.map (·.ref)
      authorizedAt := request.observation.map (·.issuedAt) }
  { s with store.corrections := s.store.corrections.put (request.taskId,next.revision) correction }

def changeApplied (request : CorrectionRequest) : Bool :=
  request.changeId.any fun change => (s.store.appliedChanges.get change).isSome

/-- The transaction of a correction; one that was already applied only records its source. -/
def correctTask (request : CorrectionRequest) : Except Err (Corrected × State) := do
  let actual ← s.requireTask request.taskId
  let s ← s.linkFollowUp request.taskId request.observation
  if s.changeApplied request then .ok (⟨actual,false⟩,s)
  else
    let s := s.noteChange request
    let grant ← s.requireGrant actual.grantId
    let next := s.nextIntent request actual
    let retired := s.retiredGrant grant
    let s ← (s.retireGrant request.taskId grant).renewOrigin o request
    let granted := s.correctedGrant o request actual next retired
    .ok (⟨next,true⟩,granted.2.installCorrection o request actual next granted.1)

/-- A context refresh resumes with the scope and deadline it was corrected under. -/
def resumedGrant (intent restored : TaskIntent) : Except Err (Grant × State) :=
  let made := s.makeGrant o restored
  if (s.store.corrections.get (intent.id,intent.revision)).any (·.kind = .contextRefresh) then
    (s.requireGrant intent.grantId).map fun prior => made.2.inheritGrant o intent prior made.1
  else .ok made

/-- A settled correction gets a new grant and loses its control record. -/
def resumeTask (taskId : TaskId) : Except Err (Unit × State) := do
  let intent ← s.requireTask taskId
  let restored := { intent with grantId := s.fresh }
  let (granted,s) ← { s with fresh := s.fresh + 1 }.resumedGrant o intent restored
  .ok ((),{ s with
    store.tasks := s.store.tasks.put intent.id restored
    store.grants := s.store.grants.put restored.grantId granted
    store.controls := s.store.controls.delete intent.id })

def newIntent (observation : Observation) (command : String) (route : Route) : TaskIntent :=
  { id := .uuid s.fresh
    ownerId := o.ownerId
    accountId := o.accountId
    source := observation.ref
    instruction := command
    revision := 1
    route
    createdAt := s.now
    updatedAt := s.now
    contextRefs := observation.contextRefs.getD [] ++ (observation.replyTo.map refKey).toList
    artifactRefs := observation.artifactRefs.getD []
    grantId := s.fresh + 1 }

def putGrantFor (intent : TaskIntent) : State :=
  let made := s.makeGrant o intent
  { made.2 with store.grants := made.2.store.grants.put intent.grantId made.1 }

def installTask (observation : Observation) (intent : TaskIntent) : State :=
  let s := { s with
    store.sources := s.store.sources.put (refKey observation.ref) intent.id
    store.tasks := s.store.tasks.put intent.id intent }
  let s := s.putGrantFor o intent
  { s with
    store.taskOwnerChanges := s.store.taskOwnerChanges.put intent.id
      ⟨observation.ref,observation.issuedAt⟩ }

/-- A public route has a reply deadline from the start, and the grant is made again under it. -/
def openOrigin (observation : Observation) (intent : TaskIntent) : State :=
  if intent.route.peerId = o.privateRoute.peerId then s
  else
    let deadline : OriginDeadline :=
      { taskId := intent.id
        peerId := some intent.route.peerId
        expiresAt := observation.sentAt.getD 0 + o.originTtl }
    { s with store.originDeadlines := s.store.originDeadlines.put intent.id deadline }.putGrantFor o intent

/-- A new task, unless its message already made one. -/
def createTask (observation : Observation) (command : String) (route : Route) :
    (TaskIntent × Bool) × State :=
  let intent := s.newIntent o observation command route
  let drawn := { s with fresh := s.fresh + 2 }
  if (s.store.sources.get (refKey observation.ref)).isSome then ((intent,false),drawn)
  else ((intent,true),(drawn.installTask o observation intent).openOrigin o observation intent)

/-- The private task behind a control reply; it consumes no run and no service grant. -/
def openControl (id : TaskId) (source : MessageRef) (target : Option TaskId) : TaskIntent × State :=
  let intent : TaskIntent :=
    { id,source
      ownerId := o.ownerId
      accountId := o.accountId
      instruction := "Private control response"
      revision := 1
      route := o.privateRoute
      createdAt := s.now
      updatedAt := s.now
      contextRefs := []
      artifactRefs := []
      grantId := s.fresh
      controlOnly := true }
  let grant : Grant :=
    { id := s.fresh
      taskId := id
      revision := 1
      capabilities := [⟨"telegram.send",[o.privateRoute.peerId]⟩]
      expiresAt := some (s.now + 24 * 60 * 60 * 1000)
      revokedAt := none }
  match s.store.tasks.get id with
  | some existing => (existing,s)
  | none => (intent,{ s with
      fresh := s.fresh + 1
      store.tasks := s.store.tasks.put id intent
      store.grants := s.store.grants.put grant.id grant
      store.controlTargets := match target with
        | some t => s.store.controlTargets.put id t
        | none => s.store.controlTargets })

/-! ## Admissions and observations -/

def reserve (admission : Admission) : Bool × State :=
  match s.store.admissions.get admission.admissionKey with
  | some _ => (false,s)
  | none => (true,{ s with store.admissions := s.store.admissions.put admission.admissionKey admission })

/-- A saved reservation cannot prove that the engine did not accept the request. -/
def loseReservation (key : AdmissionKey) : State :=
  match s.store.admissions.get key with
  | none => s
  | some a =>
    if a.state = .reserved then
      let lost := { a with
        state := .unknown
        reason := some "Interrupted admission: original operation must be reconciled, never recreated" }
      { s with store.admissions := s.store.admissions.put key lost }
    else s

def receive (key : EventKey) (observation : Observation) : State :=
  match s.store.observations.get key with
  | some _ => s
  | none =>
    let sequence := s.store.observationSequence + 1
    { s with
      store.observationSequence := sequence
      store.observations := s.store.observations.put key
        { key,observation,receivedAt := s.now,sequence := some sequence } }

end State

end Neurobro.Agent
