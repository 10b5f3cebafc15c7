import Neurobro.Agent.Signature

/-! The effect broker: one claim for each operation identity, one dispatch after the
claim, and reconciliation of what a dispatch left uncertain. -/
namespace Neurobro.Agent

open Coop

variable {o : Options}

/-- What an execution has established before its claim. -/
structure PreparedEffect where
  context : ToolContext
  id : EffectId
  payloadHash : String
  existing : Option Effect

def State.prepareEffect (o : Options) (s : State) (token : Token) (request : EffectRequest) :
    Except Err PreparedEffect := do
  if request.capability = "" ∨ request.resource = "" then
    .error (.authority "Capability and resource are required")
  else
    let record ← s.resolve token
    let current ← s.validateContext record.context
    if !permits o current.2 request.capability request.resource then
      .error (.authority "Effect capability/resource is outside the trusted grant")
    else
      s.validateResource o record.context request.capability request.resource
      s.validateEffect record.context request
      let payloadHash := o.digest (← canonical o request.payload)
      let id ← effectOperationId o record.context request
      match s.store.effects.get id with
      | none => .ok ⟨record.context,id,payloadHash,none⟩
      | some effect =>
        if effect.payloadHash ≠ payloadHash ∨ effect.capability ≠ request.capability ∨
            effect.resource ≠ request.resource then
          .error (.authority "Effect logical ID reused with a different payload")
        else .ok ⟨record.context,id,payloadHash,some effect⟩

/-- An executor that throws leaves the outcome unknown. -/
def settlement : Except Err EffectResult → EffectResult
  | .ok result => result
  | .error e => { state := .unknown,reason := some e.message }

def settle (effect : Effect) (result : EffectResult) : M o Effect := do
  let settled ← orThrow (← commit (.settle effect result))
  if settled.written ∧ settled.effect.state = .verified then
    let _ ← commit (.captureReceipt settled.effect)
    pure settled.effect
  else pure settled.effect

/-- Unknown, failed and dispatching effects are returned as they are, never replayed. -/
def executeBound (token : Token) (request : EffectRequest) : M o Effect := do
  let prepared ← require fun s => s.prepareEffect o token request
  match prepared.existing with
  | some effect => pure effect
  | none => do
    let effect ← orThrow
      (← commit (.claim token prepared.context request prepared.id prepared.payloadHash))
    let _ ← commit (.enterFlight effect.id)
    let result ← ask (.dispatch effect token)
    let _ ← commit (.leaveFlight effect.id)
    settle effect (settlement result)

def execute (token : Token) (request : EffectRequest) : M o Effect :=
  if (request.payload.field? "replaceAcknowledgement").isSome then
    refuse (.authority "Acknowledgement replacement is reserved for host final delivery")
  else executeBound token request

def acceptedNotice : String := "🤖 Нейробратик\n\nПонял, бро. Сейчас гляну."

def strField (key : String) (value : Option Json) : Option String := (value.bind (·.field? key)).bind Json.str?

/-- A replacement must name the very acknowledgement sent for this task and run. -/
def State.replacementBound (s : State) (context : ToolContext) (request : EffectRequest)
    (replacement : Json) : Bool :=
  let binding := s.store.taskAcknowledgements.get context.taskId
  let original := (strField "effectId" (some replacement)).bind s.store.effects.get
  match original,binding with
  | some original,some binding =>
    request.id = some ("delivery:" ++ context.runId ++ ":part:0") && request.capability = "telegram.send" &&
      binding.intentRevision = context.intentRevision && binding.effectId = original.id &&
      s.store.controlTargets.get original.taskId = some context.taskId &&
      original.state = .verified && original.resource = request.resource &&
      strField "payloadHash" (some replacement) = some original.payloadHash &&
      strField "peerId" original.receipt = some request.resource &&
      Json.strictEq (original.receipt.bind (·.field? "messageId")) (replacement.field? "messageId") &&
      strField "expectedText" (some replacement) = some acceptedNotice
  | _,_ => false

/-- Trusted controller final delivery uses the existing send grant and operation identity. -/
def executeDelivery (token : Token) (request : EffectRequest) : M o Effect := do
  require fun s => do
    let record ← s.resolve token
    match (request.payload.field? "replaceAcknowledgement").filter Json.truthy with
    | none => .ok ()
    | some replacement =>
      if s.replacementBound record.context request replacement then .ok ()
      else .error (.authority "Final delivery acknowledgement binding mismatch")
  executeBound token request

/-- Outside a transaction each prepared effect is written by itself. -/
def revokeTask (taskId : TaskId) : M o Unit := do
  let effects ← read fun s => s.effects o
  Async.each effects fun e =>
    if e.taskId = taskId ∧ e.state = .prepared then commit (.cancelPrepared e.id) else pure ()

/-- One listed effect: in-flight dispatches are left alone, the rest are reconciled. -/
def recoverEffect (stored : Effect) : M o Unit := do
  let flying ← read fun s => s.memory.inFlight.contains stored.id
  if !stored.state.unsettled ∨ flying then pure ()
  else
    let effect ← commit (.interrupt stored)
    let result ← ask (.reconcile effect)
    let _ ← settle effect (settlement result)
    pure ()

/-- The list is read once, and each reconciliation is awaited before the next. -/
def recoverEffects : M o Unit := do
  let listed ← read fun s => s.effects o
  Async.each listed recoverEffect

def issueToolContext (binding : RunBinding) : M o Token := do
  let context ← require fun s => do
    if (s.store.runs.get binding.admissionKey).any (·.binding = binding) then
      let intent ← s.requireTask binding.taskId
      let grant ← s.requireGrant intent.grantId
      .ok { taskId := intent.id
            intentRevision := binding.intentRevision
            grantId := grant.id
            grantRevision := grant.revision
            runId := binding.runId : ToolContext }
    else .error (.authority "Run binding is not registered")
  orThrow (← commit (.issue context))

/-- The caller has established its native execution before it asks for a token. -/
def issueExecutionContext (context : ToolContext) : M o Token := do
  let _ ← require fun s => s.validateContext context
  orThrow (← commit (.issue context))

end Neurobro.Agent
