import Neurobro.Agent.Contracts

/-! The agent's durable store, its process memory, and what the source reads from
them without changing anything. Host callbacks are part of the surroundings: they
are functions the environment may replace between two segments. -/
namespace Neurobro.Agent

/-- The order in which each collection is read back, by keyed record hash, and the
locale order of event keys. -/
structure RowOrder where
  tasks : TaskId → Nat
  controls : TaskId → Nat
  observations : EventKey → Nat
  admissions : AdmissionKey → Nat
  runs : AdmissionKey → Nat
  childStops : AdmissionKey → Nat
  effects : EffectId → Nat
  collation : EventKey → Nat

/-- Fixed configuration. A flag says whether an optional hook is installed; the
functions are the host language's digest, number text, case folding and URL parser. -/
structure Options where
  accountId : String
  ownerId : String
  privateRoute : Route
  naturalControlPeerId : Option PeerId := none
  grantTtlMs : Option Int := none
  toolContextTtlMs : Option Int := none
  originReplyTtlMs : Option Int := none
  commandPrefix : Option String := none
  prepareInput : Bool := false
  prepareAuthority : Bool := false
  onTaskStop : Bool := false
  restoreToolBinding : Bool := false
  readDeliveryMessage : Bool := false
  digest : String → String
  numberText : Rat → String
  uuidText : Nat → String
  fold : Char → Char
  publicOrigin : String → Bool
  order : RowOrder

def Options.prefixText (o : Options) : String := o.commandPrefix.getD "/бро"
def Options.grantTtl (o : Options) : Int := o.grantTtlMs.getD (7 * 24 * 60 * 60 * 1000)
def Options.contextTtl (o : Options) : Int := o.toolContextTtlMs.getD (24 * 60 * 60 * 1000)
def Options.originTtl (o : Options) : Int := o.originReplyTtlMs.getD (15 * 60 * 1000)

/-- Host callbacks that answer at once. -/
structure Policy where
  capabilityPolicy : Option (TaskIntent → List CapabilityGrant) := none
  validateToolContext : Option (ToolContext → Except Err Unit) := none
  validateToolResource : Option (ToolContext → String → String → Except Err Unit) := none
  validateEffect : Option (ToolContext → EffectRequest → Except Err Unit) := none
  canApplyImplicitCorrection : Option (TaskId → Bool) := none
  contextInvalid : TaskId → Nat → Bool := fun _ _ => false
  contextFingerprint : TaskId → String := fun _ => ""
  fatalFailure : Option Err := none

structure Store where
  observationSequence : Nat := 0
  tasks : Table TaskId TaskIntent := ∅
  grants : Table GrantId Grant := ∅
  grantBaselines : Table GrantId Time := ∅
  sources : Table String TaskId := ∅
  taskOwnerChanges : Table TaskId OwnerChange := ∅
  originDeadlines : Table TaskId OriginDeadline := ∅
  originReview : Table TaskId OriginReview := ∅
  observations : Table EventKey ReceivedObservation := ∅
  observationResults : Table EventKey IngestResult := ∅
  admissions : Table AdmissionKey Admission := ∅
  runs : Table AdmissionKey RunSnapshot := ∅
  controls : Table TaskId Control := ∅
  childStops : Table AdmissionKey ChildStop := ∅
  corrections : Table AdmissionKey Correction := ∅
  appliedChanges : Table EventKey TaskId := ∅
  contexts : Table Token ContextRecord := ∅
  effects : Table EffectId Effect := ∅
  ownOutputs : Table String OwnOutput := ∅
  controlTargets : Table TaskId TaskId := ∅
  taskAcknowledgements : Table TaskId Acknowledgement := ∅
  hostContextRefreshes : Table (TaskId × String) HostRefresh := ∅

/-- Lost when the process ends. -/
structure Memory where
  inFlight : List EffectId := []
  startFiber : Option Nat := none
  replaying : Bool := false
  activePolls : List (AdmissionKey × Nat) := []

structure State where
  store : Store := {}
  memory : Memory := {}
  now : Time
  fresh : Nat := 0
  policy : Policy := {}

def State.restart (s : State) : State := { s with memory := {} }

/-! ## Capabilities -/

def ownerAccountResource : String := "owner-account-chats"

def ownerAccountReads : List String :=
  ["telegram.history","telegram.search","telegram.message.get","telegram.context","telegram.file.get",
    "telegram.participants","telegram.poll.results","telegram.reactions.get","telegram.bot.buttons",
    "telegram.schedule.list","telegram.peer.inspect","telegram.channels.related"]

def ownerAccountActions : List String :=
  ["telegram.folder.create","telegram.folder.update","telegram.source.join"]

/-- A signed decimal without leading zeros, of at most twenty digits. -/
def isPeerNumber (resource : String) : Bool :=
  let digits := match resource.toList with
    | '-' :: rest => rest
    | cs => cs
  digits.all isDigit && digits.head?.any (· ≠ '0') && digits.length ≤ 20

def permitsOwnerAccountResource (capability resource : String) : Bool :=
  isPeerNumber resource && (ownerAccountReads ++ ownerAccountActions).contains capability

def permits (o : Options) (grant : Grant) (capability resource : String) : Bool :=
  grant.capabilities.any fun g =>
    if g.capability ≠ capability then false
    else if g.resources.contains resource then true
    else if g.resources.contains ownerAccountResource && permitsOwnerAccountResource capability resource then true
    else if !(["web.fetch","web.download"].contains capability) || !g.resources.contains "public-web" then false
    else o.publicOrigin resource

def isSend (capability : String) : Bool := ["telegram.send","telegram.media.send"].contains capability

/-! ## Effect identity -/

def TaskId.text (o : Options) : TaskId → String
  | .uuid n => o.uuidText n
  | .control ref kind version => "control:" ++ ref ++ ":" ++ kind.text ++ ":" ++ version

def isCron (runId : RunId) : Bool := "cron:".toList.isPrefixOf runId.toList

def canonical (o : Options) (value : Json) : Except Err String :=
  (value.canonicalJson o.numberText).mapError .error

/-- The broker's sole operation identity. -/
def effectOperationId (o : Options) (context : ToolContext) (request : EffectRequest) :
    Except Err EffectId := do
  let logical ← match request.id with
    | some id => pure id
    | none => o.digest <$> canonical o request.payload
  let cron := if isCron context.runId then [Json.str context.runId] else []
  let identity := [.str (context.taskId.text o),.num (.finite context.intentRevision)] ++ cron ++
    [.str logical,.str request.capability,.str request.resource]
  o.digest <$> canonical o (.arr identity)

namespace State

variable (o : Options) (s : State)

def requireTask (taskId : TaskId) : Except Err TaskIntent :=
  match s.store.tasks.get taskId with
  | some intent => .ok intent
  | none => .error (.error "Unknown task ID")

def requireGrant (grantId : GrantId) : Except Err Grant :=
  match s.store.grants.get grantId with
  | some grant => .ok grant
  | none => .error (.error "Cannot read properties of undefined")

def passed (expiresAt : Option Time) : Bool := expiresAt.any (· ≤ s.now)

/-- Current intention and grant authorize the context; the host may add its own check. -/
def validateContext (context : ToolContext) (validateAdditional : Bool := true) :
    Except Err (TaskIntent × Grant) :=
  match s.store.tasks.get context.taskId,s.store.grants.get context.grantId with
  | some intent,some grant =>
    if intent.grantId ≠ grant.id ∨ grant.taskId ≠ intent.id ∨ intent.revision ≠ context.intentRevision ∨
        grant.revision ≠ context.grantRevision ∨ grant.revokedAt.isSome ∨ s.passed grant.expiresAt then
      .error (.authority "Current task intention or grant does not authorize this context")
    else match if validateAdditional then s.policy.validateToolContext else none with
      | none => .ok (intent,grant)
      | some validate => match validate context with
        | .ok _ => .ok (intent,grant)
        | .error e => .error (.authority ("Execution context invalidated: " ++ e.message))
  | _,_ => .error (.authority "Current task intention or grant does not authorize this context")

def resolve (token : Token) : Except Err ContextRecord :=
  match s.store.contexts.get token with
  | none => .error (.authority "Tool context missing, expired or revoked")
  | some record =>
    if record.revokedAt.isSome ∨ record.expiresAt ≤ s.now then
      .error (.authority "Tool context missing, expired or revoked")
    else (s.validateContext record.context).map fun _ => record

/-- Public replies need a live deadline and no owner speech in the chat since. -/
def originResourceAllowed (intent : TaskIntent) (capability resource : String) : Bool :=
  if !isSend capability || resource = o.privateRoute.peerId then true
  else
    let deadline := s.store.originDeadlines.get intent.id
    let originPeer := (deadline.bind (·.peerId)).getD
      (if intent.route.peerId ≠ o.privateRoute.peerId then intent.route.peerId else intent.source.peerId)
    if resource ≠ originPeer ∨ (deadline.isNone ∧ intent.route.peerId = o.privateRoute.peerId) then true
    else match deadline with
      | none => false
      | some d => decide (d.expiresAt > s.now) && (s.store.originReview.get intent.id).isNone

def validateResource (context : ToolContext) (capability resource : String) : Except Err Unit := do
  let intent ← s.requireTask context.taskId
  if !s.originResourceAllowed o intent capability resource then
    .error (.authority "Public reply deadline expired or origin draft requires a fresh owner instruction")
  else match s.policy.validateToolResource with
    | none => .ok ()
    | some validate => validate context capability resource

def validateEffect (context : ToolContext) (request : EffectRequest) : Except Err Unit :=
  match s.policy.validateEffect with
  | none => .ok ()
  | some validate => validate context request

/-! ## Collections -/

def tasks : List TaskIntent := s.store.tasks.list o.order.tasks
def admissions : List Admission := s.store.admissions.list o.order.admissions
def runs : List RunSnapshot := s.store.runs.list o.order.runs
def childStops : List ChildStop := s.store.childStops.list o.order.childStops
def effects : List Effect := s.store.effects.list o.order.effects
def controls : List Control := s.store.controls.list o.order.controls
def observations : List ReceivedObservation := s.store.observations.list o.order.observations

def unsettledStops : List ChildStop := (s.childStops o).filter (·.state ≠ .settled)

def childrenUnsettled (taskId : TaskId) : Bool := (s.unsettledStops o).any (·.taskId = taskId)

def effectsUnsettled (taskId : TaskId) : Bool :=
  (s.effects o).any fun e => e.taskId = taskId ∧ e.state.unsettled

def unresolvedPriorWork (intent : TaskIntent) : Bool :=
  ((s.admissions o).any fun a => a.taskId = intent.id ∧ a.revision < intent.revision ∧ a.state.unresolved) ||
  ((s.runs o).any fun r => r.binding.taskId = intent.id ∧ r.binding.intentRevision < intent.revision ∧
    !terminal r.state) ||
  s.effectsUnsettled o intent.id

def taskForSource (ref : MessageRef) : Option TaskIntent :=
  (s.store.sources.get (refKey ref)).bind s.store.tasks.get

/-! ## Status -/

def statusState (uncertainty : Bool) (admission : Option Admission) (run : Option RunSnapshot)
    (control : Option Control) : TaskState :=
  if uncertainty ∨ admission.any (·.state = .unknown) ∨ run.any (·.state = .unknown) then .unknown
  else if control.any (·.cancelledAt.isSome) ∨ run.any (·.state = .cancelled) then .cancelled
  else if control.any (·.heldAt.isSome) then .paused
  else match run.map RunSnapshot.state with
    | some .interrupted => .unknown
    | some .completed => .ready
    | some .failed => .failed
    | some _ => .working
    | none => .accepted

def statusOf (intent : TaskIntent) : TaskStatus :=
  let key := (intent.id,intent.revision)
  let run := s.store.runs.get key
  let admission := s.store.admissions.get key
  let control := s.store.controls.get intent.id
  let effects := (s.effects o).filter (·.taskId = intent.id)
  let childStop := (s.unsettledStops o).find? (·.taskId = intent.id)
  let uncertainty := effects.any (·.state.unsettled) || childStop.isSome
  { intent,run,effects
    admission := admission.map fun a => (a.state,a.reason)
    cancelledAt := control.bind (·.cancelledAt)
    heldAt := control.bind (·.heldAt)
    reason := match childStop with
      | some stop => some (stop.reason.getD "Owned child settlement is unresolved")
      | none => control.bind (·.reason)
    state := statusState uncertainty admission run control }

/-- Statuses of all tasks that are not mere control replies. -/
def status : List TaskStatus := ((s.tasks o).filter (!·.controlOnly)).map (s.statusOf o)

def statusFor (taskId : TaskId) : Option TaskStatus :=
  ((s.store.tasks.get taskId).filter (!·.controlOnly)).map (s.statusOf o)

end State

end Neurobro.Agent
