import Neurobro.Agent.Ingest

/-! What callers can ask of the agent: polling with its deliveries, the owner's and the
host's direct operations, and the family of processes they make. -/
namespace Neurobro.Agent

open Coop

variable {o : Options}

/-! ## Delivery -/

def deliveryLimit : Nat := 3500

def textField (key : String) (value : Option String) : List (String × Json) :=
  match value with
  | some text => if text = "" then [] else [(key,.str text)]
  | none => []

def deliveryHeading (index total : Nat) : String :=
  "🤖 Нейробратик" ++ (if total > 1 then " · " ++ toString (index + 1) ++ "/" ++ toString total else "") ++ "\n\n"

def deliveryRequest (runId : RunId) (route : Route) (total index : Nat) (part : String) : EffectRequest :=
  { id := some ("delivery:" ++ runId ++ ":part:" ++ toString index)
    capability := "telegram.send"
    resource := route.peerId
    payload := .obj ([("peerId",.str route.peerId)] ++ textField "threadId" route.threadId ++
      textField "replyToMessageId" route.replyToMessageId ++
      [("text",.str (deliveryHeading index total ++ part))]) }

def strictText (value : Option Json) (text : Option String) : Bool := Json.strictEq value (text.map .str)

/-- The agent's own acknowledgement of this task, while it is the message to replace. -/
def State.acknowledgementSent (o : Options) (s : State) (intent : TaskIntent) :
    Except Err (Option (MessageRef × Effect)) :=
  match (s.store.taskAcknowledgements.get intent.id).filter (·.intentRevision = intent.revision) with
  | none => .ok none
  | some binding =>
    match s.store.effects.get binding.effectId with
    | none => .ok none
    | some effect =>
      if effect.state ≠ .verified ∨ effect.resource ≠ intent.route.peerId ∨
          strField "peerId" effect.receipt ≠ some effect.resource then .ok none
      else match strField "messageId" effect.receipt with
        | none => .ok none
        | some messageId =>
          let ref : MessageRef := { accountId := o.accountId,peerId := effect.resource,messageId }
          match s.store.ownOutputs.get (refKey ref) with
          | none => .ok none
          | some own =>
            if own.taskId ≠ intent.id ∨ own.effectId ≠ some effect.id then .ok none
            else do
              let threadId ← (effect.payload.property "threadId").mapError .error
              let replyTo ← (effect.payload.property "replyToMessageId").mapError .error
              if strictText threadId intent.route.threadId && strictText replyTo intent.route.replyToMessageId
              then .ok (some (ref,effect)) else .ok none

/-- The message read back is still the acknowledgement as it was sent. -/
def unchangedMessage (o : Options) (intent : TaskIntent) (ref : MessageRef) (effect : Effect)
    (current : Observation) : Bool :=
  sameRef current.ref ref && current.outgoing && current.authorId = some o.accountId &&
    !current.forwarded && !current.viaBot && current.agentEffectId = some effect.id &&
    strictText (effect.payload.field? "text") current.text && current.ref.threadId = intent.route.threadId

def acknowledgementReplacement (intent : TaskIntent) : M o (Option Json) := do
  if !o.readDeliveryMessage then pure none
  else match ← require fun s => s.acknowledgementSent o intent with
    | none => pure none
    | some (ref,effect) =>
      match ← ask (.readDeliveryMessage ref) with
      | .error _ | .ok none => pure none
      | .ok (some current) =>
        if !unchangedMessage o intent ref effect current then pure none
        else
          let expected := (effect.payload.field? "text").map fun text => ("expectedText",text)
          pure (some (.obj ([("effectId",.str effect.id),("payloadHash",.str effect.payloadHash),
            ("messageId",.str ref.messageId)] ++ expected.toList)))

def withReplacement (payload replacement : Json) : Json :=
  match payload with
  | .obj fields => .obj (fields ++ [("replaceAcknowledgement",replacement)])
  | _ => payload

/-- Formatting upgrades must not change the identity or payload of a prepared delivery. -/
def deliverPart (token : Token) (intent : TaskIntent) (request : EffectRequest) (index : Nat) :
    M o Effect := do
  let previous ← require fun s => do
    let record ← s.resolve token
    let id ← effectOperationId o record.context request
    .ok (s.store.effects.get id)
  let payload ← match previous with
    | some effect => pure effect.payload
    | none => do
      let replacement ← if index = 0 then Async.await (acknowledgementReplacement intent) else pure none
      pure ((replacement.map (withReplacement request.payload)).getD request.payload)
  Async.await (executeDelivery token { request with payload })

/-- An unverified part ends the delivery: it settles before the next can be attempted. -/
def deliverFrom (token : Token) (intent : TaskIntent) (runId : RunId) (total : Nat) :
    Nat → List String → M o (List Effect)
  | _,[] => pure []
  | index,part :: rest => do
    let request := deliveryRequest runId intent.route total index part
    match ← Async.settle (deliverPart token intent request index) with
    | .error e => if e.isAuthority then pure [] else refuse e
    | .ok effect =>
      if effect.state ≠ .verified then pure [effect]
      else
        let others ← deliverFrom token intent runId total (index + 1) rest
        pure (effect :: others)

/-- The completed output a listed status offers for delivery. -/
def TaskStatus.deliverable (status : TaskStatus) : Option (RunBinding × String) :=
  match status.run with
  | none => none
  | some run =>
    match run.output with
    | none => none
    | some output =>
      if status.cancelledAt.isSome ∨ status.heldAt.isSome ∨ run.state ≠ .completed ∨ output = "" ∨
          run.binding.intentRevision ≠ status.intent.revision then none
      else some (run.binding,output)

def deliver (status : TaskStatus) : M o (List Effect) := do
  match status.deliverable with
  | none => pure []
  | some (binding,output) =>
    let grant ← require (·.requireGrant status.intent.grantId)
    if ← read fun s => grant.revokedAt.isSome || s.passed grant.expiresAt then pure []
    else
      let token ← issueToolContext binding
      let parts := deliveryParts output deliveryLimit
      deliverFrom token status.intent binding.runId parts.length 0 parts

structure PollResult where
  tasks : List TaskStatus
  deliveries : List Effect

def refreshRuns : M o Unit := do
  let live ← read fun s => (s.runs o).filter (!terminal ·.state)
  let refreshes ← Async.gather live fun snapshot => Async.fork (refresh snapshot)
  Async.each refreshes Async.join

def poll : M o PollResult := do
  Async.await start
  Async.await recoverEffects
  refreshRuns
  stopOpenChildren "Reconcile parent stop"
  Async.await resumeSettledCorrections
  let statuses ← read (·.status o)
  let deliveries ← Async.gather statuses deliver
  let tasks ← read (·.status o)
  pure { tasks,deliveries := deliveries.flatten }

/-! ## Direct operations -/

def cancel (taskId : TaskId) : M o (Option TaskStatus) := do
  Async.await start
  applyCancellation taskId

/-- Trusted host invalidation suspends future work without changing the owner's objective. -/
def suspendTask (taskId : TaskId) (reason : String) : M o Unit := do
  Async.await start
  Async.await (hold taskId reason)

def correct (taskId : TaskId) (instruction : String) (route : Option Route) : M o (Option TaskStatus) := do
  Async.await start
  let now ← read (·.now)
  applyCorrection { taskId,instruction,route,authorizedAt := some now }

/-- Trusted context maintenance changes no owner objective, route, scope or expiry. -/
def refreshContext (taskId : TaskId) : M o (Option TaskStatus) := do
  Async.await start
  let now ← read (·.now)
  applyCorrection { taskId,instruction := "",authorizedAt := some now,contextRefresh := true }

/-- Scope refresh alone; it grants no new execution and cannot revive a revoked task. -/
def refreshAuthority (taskId : TaskId) : M o ToolContext := do
  Async.await start
  prepareTaskAuthority taskId

def executeEffect (token : Token) (request : EffectRequest) : M o Effect := do
  Async.await start
  execute token request

/-- The accepted notice is host-owned; model output cannot register an acknowledgement. -/
def registerAcknowledgement (taskId : TaskId) (effect : Effect) : M o Unit := do
  let intent ← require (·.requireTask taskId)
  let target ← read fun s => s.store.controlTargets.get effect.taskId
  let exact ← orThrow (α := Bool) do
    if target ≠ some taskId ∨ effect.capability ≠ "telegram.send" ∨ effect.resource ≠ o.privateRoute.peerId then
      .ok false
    else
      let text ← (effect.payload.property "text").mapError .error
      .ok (strictText text (some acceptedNotice))
  if !exact then
    refuse (.authority "Acknowledgement must be an exact host control reply for this task")
  else if ← read fun s => (s.store.taskAcknowledgements.get taskId).isSome then pure ()
  else commit (.acknowledge { taskId,intentRevision := intent.revision,effectId := effect.id })

def registerOwnOutput (ref : MessageRef) (taskId : TaskId) (effectId : Option EffectId) : M o Unit := do
  let _ ← require (·.requireTask taskId)
  if ref.accountId ≠ o.accountId then
    refuse (.authority "Own output belongs to a different account")
  else commit (.putOwnOutput { ref,taskId,effectId })

def State.trustedSourceDeletion (o : Options) (s : State) (obs : Observation) : Bool :=
  obs.kind = .delete && obs.ref.accountId = o.accountId && !obs.forwarded && !obs.viaBot &&
    obs.authorId.all (· = o.ownerId) && (s.taskForSource obs.ref).isSome

def controlReplyRequest (o : Options) (text : String) : EffectRequest :=
  { id := some "control-reply"
    capability := "telegram.send"
    resource := o.privateRoute.peerId
    payload := .obj ([("peerId",.str o.privateRoute.peerId)] ++ textField "threadId" o.privateRoute.threadId ++
      [("text",.str ("🤖 Нейробратик\n\n" ++ text))]) }

/-- Host-only reply for status, cancel and ambiguity, sent at most once for each observation. -/
def journalControlReply (obs : Observation) (text : String) (target : Option TaskId) : M o Effect := do
  Async.await start
  if !authenticate o obs && !(← read fun s => s.trustedSourceDeletion o obs) then
    refuse (.authority "Control replies require an authenticated owner observation")
  else
    require fun s => match target with
      | some taskId => (s.requireTask taskId).map fun _ => ()
      | none => .ok ()
    let id : TaskId := .control (refKey obs.ref) obs.kind (obs.version.getD "")
    let intent ← commit (.openControl id obs.ref target)
    let grant ← require (·.requireGrant intent.grantId)
    let token ← orThrow (← commit (.issue
      { taskId := id,intentRevision := 1,grantId := grant.id,grantRevision := grant.revision
        runId := "control:" ++ obs.id }))
    match ← read fun s => ((s.effects o).filter (·.taskId = id)).head? with
    | some existing => pure existing
    | none => execute token (controlReplyRequest o text)

/-! ## The host -/

def TaskState.refreshable : TaskState → Bool
  | .accepted | .working => true
  | _ => false

/-- One task of the status list the host has read before. -/
def refreshInvalidatedTask (status : TaskStatus) : M o Unit := do
  let taskId := status.intent.id
  let revision := status.intent.revision
  if !status.state.refreshable || !(← read fun s => s.policy.contextInvalid taskId revision) then pure ()
  else
    let key ← read fun s => (taskId,s.policy.contextFingerprint taskId)
    let prior ← read fun s => s.store.hostContextRefreshes.get key
    if prior.any fun p => p.completed || p.revision < revision then pure ()
    else
      commit (.putHostRefresh key { taskId,revision,completed := false })
      let _ ← Async.await (refreshContext taskId)
      commit (.putHostRefresh key { taskId,revision,completed := true })
      match ← read (·.policy.fatalFailure) with
      | some failure => refuse failure
      | none => pure ()

/-- Ready, failed, held and unknown tasks are never regenerated. -/
def refreshInvalidatedTasks : M o Unit := do
  let statuses ← read (·.status o)
  Async.each statuses refreshInvalidatedTask

/-! ## The family -/

inductive Op where
  | start
  | ingest (observation : Observation)
  | poll
  | cancel (taskId : TaskId)
  | suspendTask (taskId : TaskId) (reason : String)
  | correct (taskId : TaskId) (instruction : String) (route : Option Route)
  | refreshContext (taskId : TaskId)
  | refreshAuthority (taskId : TaskId)
  | refreshInvalidatedTasks
  | executeEffect (token : Token) (request : EffectRequest)
  | journalControlReply (observation : Observation) (text : String) (target : Option TaskId)
  | registerAcknowledgement (taskId : TaskId) (effect : Effect)
  | registerOwnOutput (ref : MessageRef) (taskId : TaskId) (effectId : Option EffectId)
  | issueToolContext (binding : RunBinding)
  | issueExecutionContext (context : ToolContext)
  | revokeToolContext (token : Token)
  | execute (token : Token) (request : EffectRequest)
  | executeBound (token : Token) (request : EffectRequest)
  | executeDelivery (token : Token) (request : EffectRequest)
  | recoverEffects
  | revokeTask (taskId : TaskId)

def discard (m : M o α) : M o Unit := do
  let _ ← m

def Op.program (o : Options) : Op → M o Unit
  | .start => Agent.start
  | .ingest obs => discard (Agent.ingest obs)
  | .poll => discard Agent.poll
  | .cancel taskId => discard (Agent.cancel taskId)
  | .suspendTask taskId reason => Agent.suspendTask taskId reason
  | .correct taskId instruction route => discard (Agent.correct taskId instruction route)
  | .refreshContext taskId => discard (Agent.refreshContext taskId)
  | .refreshAuthority taskId => discard (Agent.refreshAuthority taskId)
  | .refreshInvalidatedTasks => Agent.refreshInvalidatedTasks
  | .executeEffect token request => discard (Agent.executeEffect token request)
  | .journalControlReply obs text target => discard (Agent.journalControlReply obs text target)
  | .registerAcknowledgement taskId effect => Agent.registerAcknowledgement taskId effect
  | .registerOwnOutput ref taskId effectId => Agent.registerOwnOutput ref taskId effectId
  | .issueToolContext binding => discard (Agent.issueToolContext binding)
  | .issueExecutionContext context => discard (Agent.issueExecutionContext context)
  | .revokeToolContext token => commit (.revokeToken token)
  | .execute token request => discard (Agent.execute token request)
  | .executeBound token request => discard (Agent.executeBound token request)
  | .executeDelivery token request => discard (Agent.executeDelivery token request)
  | .recoverEffects => Agent.recoverEffects
  | .revokeTask taskId => Agent.revokeTask taskId

def body (o : Options) (op : Op) : Proc (agent o) := op.program o .done

/-- A fresh store: the agent's own life begins here. -/
def State.boot (now : Time) (policy : Policy) : State := { now,policy }

/-! ## A plain configuration -/

/-- No hooks are installed, and texts stand for themselves. -/
def Options.plain : Options where
  accountId := "1"
  ownerId := "1"
  privateRoute := { peerId := "10" }
  digest := id
  numberText q := toString q.num
  uuidText n := "u" ++ toString n
  fold := id
  publicOrigin _ := false
  order := ⟨fun _ => 0,fun _ => 0,fun _ => 0,fun _ => 0,fun _ => 0,fun _ => 0,fun _ => 0,fun _ => 0⟩

/-- A message the owner sends in a chat. -/
def spoken (peerId : PeerId) (messageId text : String) : Observation where
  id := messageId
  kind := .message
  ref := { accountId := "1",peerId,messageId }
  authorId := some "1"
  outgoing := true
  text := some text
  sentAt := some 0
  observedAt := some 0

/-- The engine can do what the agent needs. -/
def capable : (q : Call) → Option q.Reply
  | .capabilities => some (.ok ⟨true,true⟩)
  | _ => none

/-- The executor, or its reconciliation, answers with this result. -/
def executed (result : EffectResult) : (q : Call) → Option q.Reply
  | .dispatch _ _ | .reconcile _ => some (.ok result)
  | _ => none

/-- The run the engine makes of a submission. -/
def EngineInput.binding (input : EngineInput) : RunBinding where
  runId := "run"
  taskId := input.taskId
  intentRevision := input.intentRevision
  idempotencyKey := input.idempotencyKey

/-- The engine answers about a run with this state. -/
def answered (state : RunState) : (q : Call) → Option q.Reply
  | .submit input => some (.ok { binding := input.binding,state,observedAt := some 0 })
  | .inspect binding | .cancel binding => some (.ok { binding,state,observedAt := some 0 })
  | _ => none

/-- A fresh start of the plain agent. -/
def boot : World (agent .plain) := World.initial (State.boot 0 {})

/-- A run of the plain agent by a script. -/
def play (script : List (Choice (agent .plain) Op)) (w : World (agent .plain)) (last : Nat := 400) :
    Option (World (agent .plain)) := World.play (body .plain) 400 last script w

theorem play_any
 (played : (play script w last).any test) :
    ∃ w', World.Leads (body .plain) w w' ∧ test w' := World.play_any played

end Neurobro.Agent
