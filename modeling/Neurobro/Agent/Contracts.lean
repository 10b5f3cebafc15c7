import Neurobro.Data.Json
import Neurobro.Data.Table
import Neurobro.Agent.Text

/-! Domain contract of the personal agent and the records it stores. Dates are kept
as the instant they parse to; random identifiers and tokens are drawn from one
supply and never repeat. -/
namespace Neurobro.Agent

/-- Milliseconds of the agent's clock. -/
abbrev Time := Int

/-- A date text from outside, as it parses; `none` does not parse. -/
abbrev Stamp := Option Time

abbrev PeerId := String
abbrev EffectId := String
abbrev RunId := String
abbrev GrantId := Nat
abbrev Token := Nat

/-- Errors of the source language: an authority refusal is told from the rest. -/
inductive Err where
  | authority (message : String)
  | error (message : String)
  deriving DecidableEq

def Err.message : Err → String
  | .authority message => message
  | .error message => message

def Err.isAuthority : Err → Bool
  | .authority _ => true
  | .error _ => false

structure MessageRef where
  accountId : String
  peerId : PeerId
  messageId : String
  threadId : Option String := none
  deriving DecidableEq

def refKey (ref : MessageRef) : String := stringArray [ref.accountId,ref.peerId,ref.messageId]

def sameRef (a b : MessageRef) : Bool := refKey a = refKey b

inductive ObservationKind where
  | message
  | edit
  | delete
  deriving DecidableEq

def ObservationKind.text : ObservationKind → String
  | .message => "message"
  | .edit => "edit"
  | .delete => "delete"

structure Observation where
  id : String
  kind : ObservationKind
  ref : MessageRef
  authorId : Option String := none
  outgoing : Bool
  text : Option String := none
  sentAt : Stamp
  observedAt : Stamp
  replyTo : Option MessageRef := none
  forwarded : Bool := false
  viaBot : Bool := false
  agentEffectId : Option EffectId := none
  attachments : List String := []
  version : Option String := none
  editedAt : Option Stamp := none
  authorityTextRanges : Option (List TextSpan) := none
  artifactRefs : Option (List String) := none
  contextRefs : Option (List String) := none
  deriving DecidableEq

/-- Identity of one observation event. -/
structure EventKey where
  id : String
  kind : ObservationKind
  version : String
  deriving DecidableEq

def Observation.eventKey (o : Observation) : EventKey :=
  ⟨o.id,o.kind,o.version.getD (o.text.getD "")⟩

/-- When the owner issued it: the edit, or else the message. -/
def Observation.issuedAt (o : Observation) : Stamp := o.editedAt.getD o.sentAt

/-- Ordinary tasks are named at random, control replies by what they answer. -/
inductive TaskId where
  | uuid (name : Nat)
  | control (ref : String) (kind : ObservationKind) (version : String)
  deriving DecidableEq

structure Route where
  peerId : PeerId
  threadId : Option String := none
  replyToMessageId : Option String := none
  deriving DecidableEq

structure CapabilityGrant where
  capability : String
  resources : List String
  deriving DecidableEq

structure Grant where
  id : GrantId
  taskId : TaskId
  revision : Nat
  capabilities : List CapabilityGrant
  expiresAt : Option Time
  revokedAt : Option Time
  deriving DecidableEq

structure TaskIntent where
  id : TaskId
  ownerId : String
  accountId : String
  source : MessageRef
  instruction : String
  revision : Nat
  route : Route
  createdAt : Time
  updatedAt : Time
  contextRefs : List String
  artifactRefs : List String
  grantId : GrantId
  controlOnly : Bool := false
  deriving DecidableEq

inductive RunState where
  | queued
  | running
  | waiting
  | completed
  | failed
  | interrupted
  | cancelled
  | unknown
  | unrecognized (text : String)
  deriving DecidableEq

def terminal : RunState → Bool
  | .completed | .failed | .interrupted | .cancelled => true
  | _ => false

structure RunBinding where
  runId : RunId
  sessionId : Option String := none
  taskId : TaskId
  intentRevision : Nat
  idempotencyKey : String
  deriving DecidableEq

structure RunSnapshot where
  binding : RunBinding
  state : RunState
  observedAt : Stamp
  output : Option String := none
  reason : Option String := none
  deriving DecidableEq

inductive EffectState where
  | prepared
  | dispatching
  | verified
  | failed
  | unknown
  | cancelled
  deriving DecidableEq

/-- Still possibly in progress outside. -/
def EffectState.unsettled : EffectState → Bool
  | .unknown | .dispatching => true
  | _ => false

structure Effect where
  id : EffectId
  taskId : TaskId
  intentRevision : Nat
  grantId : GrantId
  grantRevision : Nat
  capability : String
  resource : String
  payload : Json
  payloadHash : String
  state : EffectState
  createdAt : Time
  updatedAt : Time
  receipt : Option Json := none
  reason : Option String := none

inductive SettledState where
  | verified
  | failed
  | unknown
  | unrecognized (text : String)
  deriving DecidableEq

structure EffectResult where
  state : SettledState
  receipt : Option Json := none
  reason : Option String := none

structure EffectRequest where
  id : Option String := none
  capability : String
  resource : String
  payload : Json

structure ToolContext where
  taskId : TaskId
  intentRevision : Nat
  grantId : GrantId
  grantRevision : Nat
  runId : RunId
  deriving DecidableEq

structure ContextRecord where
  context : ToolContext
  expiresAt : Time
  revokedAt : Option Time := none
  deriving DecidableEq

inductive AdmissionState where
  | reserved
  | bound
  | unknown
  | blocked
  deriving DecidableEq

def AdmissionState.unresolved : AdmissionState → Bool
  | .unknown | .reserved => true
  | _ => false

structure Admission where
  taskId : TaskId
  revision : Nat
  key : String
  token : Token
  state : AdmissionState
  createdAt : Time
  reason : Option String := none
  deriving DecidableEq

/-- Identity of one intention of a task, and of the admission and run made for it. -/
abbrev AdmissionKey := TaskId × Nat

def Admission.admissionKey (a : Admission) : AdmissionKey := (a.taskId,a.revision)

def RunBinding.admissionKey (b : RunBinding) : AdmissionKey := (b.taskId,b.intentRevision)

structure Control where
  taskId : TaskId
  cancelledAt : Option Time := none
  heldAt : Option Time := none
  reason : Option String := none
  resumeWhenSettled : Bool := false
  deriving DecidableEq

inductive StopState where
  | pending
  | settled
  | unknown
  deriving DecidableEq

structure ChildStop where
  taskId : TaskId
  revision : Nat
  state : StopState
  reason : Option String := none
  deriving DecidableEq

structure OwnOutput where
  ref : MessageRef
  taskId : TaskId
  effectId : Option EffectId := none
  controlOnly : Bool := false
  deriving DecidableEq

structure ReceivedObservation where
  key : EventKey
  observation : Observation
  receivedAt : Time
  sequence : Option Nat := none
  deriving DecidableEq

structure OriginDeadline where
  taskId : TaskId
  peerId : Option PeerId := none
  expiresAt : Time
  deriving DecidableEq

structure OriginReview where
  taskId : TaskId
  ref : MessageRef
  reason : String
  deriving DecidableEq

structure OwnerChange where
  ref : MessageRef
  authorizedAt : Stamp
  deriving DecidableEq

inductive CorrectionKind where
  | contextRefresh
  | ownerCorrection
  deriving DecidableEq

structure Correction where
  taskId : TaskId
  revision : Nat
  instruction : String
  kind : CorrectionKind
  createdAt : Time
  ownerSource : Option MessageRef := none
  authorizedAt : Option Stamp := none
  deriving DecidableEq

structure Acknowledgement where
  taskId : TaskId
  intentRevision : Nat
  effectId : EffectId
  deriving DecidableEq

inductive TaskState where
  | accepted
  | working
  | ready
  | failed
  | paused
  | cancelled
  | unknown
  deriving DecidableEq

structure TaskStatus where
  intent : TaskIntent
  run : Option RunSnapshot
  admission : Option (AdmissionState × Option String)
  cancelledAt : Option Time
  heldAt : Option Time
  reason : Option String
  effects : List Effect
  state : TaskState

inductive Disposition where
  | ignored
  | duplicate
  | accepted
  | status
  | cancelled
  | corrected
  | held
  | ambiguous
  deriving DecidableEq

structure IngestResult where
  disposition : Disposition
  taskId : Option TaskId := none
  reason : Option String := none
  status : List TaskStatus := []

/-- A context refresh the host has asked for. -/
structure HostRefresh where
  taskId : TaskId
  revision : Nat
  completed : Bool
  deriving DecidableEq

/-! ## What the engine, the executor and the host are asked -/

structure EngineCapabilities where
  durable : Bool
  sessions : Bool
  deriving DecidableEq

/-- Context text of a submission: the host's own, or derived from the task. -/
inductive EngineContext where
  | prepared (text : String)
  | derived (source : MessageRef) (contextRefs artifactRefs : List String)
      (previousOutput : Option String) (previousRunId : Option RunId)
  deriving DecidableEq

structure EngineInput where
  taskId : TaskId
  intentRevision : Nat
  idempotencyKey : String
  instruction : String
  toolContext : Token
  sessionId : Option String
  stagedFiles : Option (List String)
  context : EngineContext
  deriving DecidableEq

structure PreparedInput where
  context : Option String := none
  stagedFiles : Option (List String) := none
  freshSession : Bool := false
  deriving DecidableEq

/-- `expiresAt` may be absent, explicitly nothing, or a date text. -/
structure PreparedAuthority where
  capabilities : List CapabilityGrant
  expiresAt : Option (Option Stamp) := none
  deriving DecidableEq

structure StopResult where
  settled : Bool
  reason : Option String := none
  deriving DecidableEq

end Neurobro.Agent
