import Neurobro.Coop.Process
import Neurobro.Schedules.Records

/-! The schedule coordinator. Each store transaction, with the checks made in the same
segment, is one commit; requests to native cron and the completion callback are awaited. -/
namespace Neurobro.Schedules

open Coop
open Jobs (ToolContext)

/-- `rank` is the keyed order in which the store lists rows. -/
structure Options where
  host : Host
  rank : String → Nat
  timeoutMs : Option Nat := none
  onComplete : Bool

/-- What the synchronous callbacks of the host would answer just now. -/
structure Policy where
  validateScope : ToolContext → Except Err Unit
  issueToolContext : ToolContext → Except Err Unit
  resolveToolContext : Token → Except Err Unit
  prepareExecution : ToolContext → Except Err Unit

structure IssuedContext where
  context : ToolContext
  revoked : Bool := false

/-- `fresh` numbers the next credential or token to be drawn. -/
structure State where
  schedules : Table String ScheduleRecord := ∅
  contexts : Table Token IssuedContext := ∅
  fresh : Nat := 0
  policy : Policy
  now : Nat

structure HostCancellationInput where
  taskId : String
  scheduleId : Option String := none
  key : Option String := none
  nativeJobId : Option String := none
  expectedNativeJobId : Option String := none

inductive Cmd where
  | prepare (context : ToolContext) (spec : ScheduleSpec) (id : String)
  | activate (id jobId : String)
  | requestControl (context : ToolContext) (id : String) (action : Control)
  | finishControl (id : String) (action : Control)
  | hostCancel (input : HostCancellationInput) (id : String)
  | discover (id discovered : String)
  | hostCleanup (id : String) (nativeCleanup : Cleanup) (reason : Option CancellationReason)
  | saveBinding (id : String) (state : BindingState) (reason : Option BindingReason)
  | admitExecution (credential : Credential) (job execution : String)
  | recordResult (credential : Credential) (execution runId : String) (body : Json)
  | finishCallback (id execution : String) (state : CallbackState)
  | withdrawCallback (id execution : String)

@[reducible] def Cmd.Result : Cmd → Type
  | .requestControl _ _ _ => Except Err String
  | .admitExecution _ _ _ => Except Err Token
  | .recordResult _ _ _ _ => Except Err Bool
  | .saveBinding _ _ _ | .finishCallback _ _ _ | .withdrawCallback _ _ => Except Err Unit
  | _ => Except Err ScheduleRecord

/-- A transaction that throws leaves the store as it was. -/
def transaction {α : Type} (s : State) (r : Except Err (α × State)) : Except Err α × State :=
  match r with
  | .ok (a,s') => (.ok a,s')
  | .error e => (.error e,s)

namespace State

/-- Reading a row that must be there. -/
def schedule (s : State) (id : String) : Except Err ScheduleRecord :=
  match s.schedules.get id with
  | some record => .ok record
  | none => .error "Cannot read properties of undefined"

def putSchedule (s : State) (id : String) (record : ScheduleRecord) : State :=
  { s with schedules := s.schedules.put id record }

/-- What a transaction that saves one row returns. -/
def saving (s : State) (id : String) (record : ScheduleRecord) : ScheduleRecord × State :=
  (record,s.putSchedule id record)

def revokeToolContext (s : State) (token : Token) : State :=
  match s.contexts.get token with
  | none => s
  | some issued => { s with contexts := s.contexts.put token { issued with revoked := true } }

def resolveToolContext (s : State) (token : Token) : Except Err Unit :=
  match s.contexts.get token with
  | none => .error "Tool context missing, expired or revoked"
  | some issued =>
    if issued.revoked then .error "Tool context missing, expired or revoked"
    else s.policy.resolveToolContext token

def issueToolContext (s : State) (context : ToolContext) : Except Err (Token × State) := do
  s.policy.issueToolContext context
  .ok (s.fresh,{ s with contexts := s.contexts.put s.fresh ⟨context,false⟩, fresh := s.fresh + 1 })

def revokeTokens (s : State) (record : ScheduleRecord) : State :=
  (record.executions.entries.map fun e => e.2.token).foldl State.revokeToolContext s

end State

def ScheduleRecord.revokeExecutions (record : ScheduleRecord) : ScheduleRecord :=
  { record with executions := record.executions.mapRows fun e => { e with revoked := true } }

def ScheduleRecord.putExecution (record : ScheduleRecord) (execution : String) (entry : Execution) : ScheduleRecord :=
  { record with executions := record.executions.put execution entry }

/-! ## Transactions -/

variable (o : Options) (s : State)

def State.owned (context : ToolContext) (id : String) : Except Err ScheduleRecord := do
  s.policy.validateScope context
  match s.schedules.get id with
  | none => .error "Schedule is outside current task scope"
  | some record =>
    if !scopeEqual context record.binding then .error "Schedule is outside current task scope" else .ok record

def newSchedule (context : ToolContext) (spec : ScheduleSpec) (id : String) : ScheduleRecord where
  id
  key := id
  binding := context
  spec
  credential := .issued s.fresh
  state := .prepared
  createdAt := s.now

def State.prepare (context : ToolContext) (spec : ScheduleSpec) (id : String) :
    Except Err (ScheduleRecord × State) := do
  s.policy.validateScope context
  match s.schedules.get id with
  | some old =>
    if !scopeEqual context old.binding || o.host.digest old.spec.json ≠ o.host.digest spec.json then
      .error "Schedule key conflicts with its immutable scope/spec"
    else .ok (old,s)
  | none => .ok ({ s with fresh := s.fresh + 1 }.saving id (newSchedule s context spec id))

def State.activate (id jobId : String) : Except Err (ScheduleRecord × State) := do
  let current ← s.schedule id
  if current.nativeJobId.any (· ≠ jobId) then .error "Native cron job identity changed"
  else .ok (s.saving id { current with nativeJobId := some jobId, state := .active })

/-- Fresh admissions are blocked before the request leaves; its native job is returned. -/
def State.requestControl (context : ToolContext) (id : String) (action : Control) : Except Err (String × State) := do
  let record ← s.owned context id
  match record.nativeJobId with
  | none => .error "Schedule cannot be controlled"
  | some job =>
    if record.state = .cancelled && action ≠ .cancel then .error "Schedule cannot be controlled"
    else if record.pendingControl.any (· ≠ action) && action ≠ .cancel then
      .error "Schedule pending control requires same-action reconciliation"
    else
      let pending := { record with pendingControl := some action }
      if action = .resume then .ok (job,s.putSchedule id pending)
      else .ok (job,(s.revokeTokens record).putSchedule id pending.revokeExecutions)

def Control.settled : Control → ScheduleState
  | .resume => .active
  | .pause => .paused
  | .cancel => .cancelled

def State.finishControl (id : String) (action : Control) : Except Err (ScheduleRecord × State) := do
  let latest ← s.schedule id
  .ok (s.saving id { latest with state := action.settled, pendingControl := none })

/-- Every supplied identifier fits the record. -/
def HostCancellationInput.fits (input : HostCancellationInput) (record : ScheduleRecord) : Bool :=
  record.binding.taskId = input.taskId && input.scheduleId.all (· = record.id) &&
    input.key.all (· = record.spec.key) && input.nativeJobId.all (record.nativeJobId = some ·) &&
    (input.expectedNativeJobId.isNone || record.nativeJobId.isNone ||
      record.nativeJobId = input.expectedNativeJobId)

def HostCancellation.verified (h : HostCancellation) : Bool := h.nativeCleanup = .verified

def ScheduleRecord.cleanedUp (record : ScheduleRecord) : Bool :=
  record.hostCancellation.any HostCancellation.verified

def State.hostCancel (input : HostCancellationInput) (id : String) : Except Err (ScheduleRecord × State) :=
  match s.schedules.get id with
  | none => .error "Host cancellation binding changed"
  | some current =>
    if !input.fits current then .error "Host cancellation binding changed"
    else if current.cleanedUp then .ok (current,s)
    else
      let requestedAt := (current.hostCancellation.map HostCancellation.requestedAt).getD s.now
      .ok ((s.revokeTokens current).saving id { current.revokeExecutions with
        pendingControl := some .cancel
        state := .cancelled
        hostCancellation := some { requestedAt, nativeCleanup := .pending } })

def State.discover (id discovered : String) : Except Err (ScheduleRecord × State) := do
  let latest ← s.schedule id
  if latest.nativeJobId.any (· ≠ discovered) then .error "Native cron job identity changed"
  else .ok (s.saving id { latest with nativeJobId := some discovered })

def State.hostCleanup (id : String) (nativeCleanup : Cleanup) (reason : Option CancellationReason) :
    Except Err (ScheduleRecord × State) := do
  let latest ← s.schedule id
  match latest.hostCancellation with
  | none => .error "Cannot read properties of undefined (reading 'requestedAt')"
  | some old =>
    .ok (s.saving id { latest with
      hostCancellation := some ⟨old.requestedAt,nativeCleanup,reason⟩
      pendingControl := if nativeCleanup = .verified then none else latest.pendingControl })

def State.saveBinding (id : String) (state : BindingState) (reason : Option BindingReason) :
    Except Err (Unit × State) := do
  let latest ← s.schedule id
  .ok ((),s.putSchedule id { latest with nativeBinding := some ⟨state,s.now,reason⟩ })

def State.credentialRecord (credential : Credential) : Except Err ScheduleRecord :=
  if !credential.wellFormed then .error "Invalid schedule credential"
  else match (s.schedules.list o.rank).find? fun item => item.credential = credential with
    | none => .error "Unknown schedule binding"
    | some record =>
      if record.nativeJobId.isNone then .error "Unknown schedule binding"
      else do
        s.policy.validateScope record.binding
        .ok record

def ScheduleRecord.bindingUnknown (record : ScheduleRecord) : Bool :=
  record.nativeBinding.any fun b => b.state = .unknown

/-- Names every object of the source language already has. -/
def inheritedNames : List String :=
  ["toString","valueOf","hasOwnProperty","isPrototypeOf","propertyIsEnumerable","toLocaleString",
    "__defineGetter__","__defineSetter__","__lookupGetter__","__lookupSetter__"]

/-- Reading an entry by name: an inherited name finds no entry but a function, whose
missing token no host resolves. -/
def ScheduleRecord.entry (record : ScheduleRecord) (execution : String) : Except Err (Option Execution) :=
  match record.executions.get execution with
  | some entry => .ok (some entry)
  | none => if inheritedNames.contains execution then .error "Invalid tool context" else .ok none

def newExecution (job execution : String) (token : Token) : Execution where
  runId := cronRun job execution
  token
  admittedAt := s.now

def State.admitExecution (credential : Credential) (job execution : String) : Except Err (Token × State) := do
  let record ← s.credentialRecord o credential
  if record.nativeJobId ≠ some job || record.state ≠ .active || record.pendingControl.isSome ||
      record.bindingUnknown then
    .error "Cron schedule is inactive or misbound"
  else match ← record.entry execution with
    | some old =>
      if old.manifest.isSome then .error "Cron execution already completed"
      else if old.revoked then .error "Cron execution authority was revoked"
      else do
        s.resolveToolContext old.token
        .ok (old.token,s)
    | none => do
      let context := { record.binding with runId := cronRun job execution }
      s.policy.prepareExecution context
      let issued ← s.issueToolContext context
      let entry := newExecution s job execution issued.1
      .ok (issued.1,issued.2.putSchedule record.id (record.putExecution execution entry))

/-- The callback may start only where a fresh admission could. -/
def callbackAllowed (latest : ScheduleRecord) (admitted : Execution) (body : Json) : Bool :=
  !Json.strictEq (body.field? "outcome") (some (.str "unknown")) && !admitted.revoked &&
    latest.state = .active && latest.pendingControl.isNone && o.onComplete

/-- Whether the result had been recorded before. -/
def State.recordResult (credential : Credential) (execution runId : String) (body : Json) :
    Except Err (Bool × State) := do
  let latest ← s.credentialRecord o credential
  match ← latest.entry execution with
  | none => .error "Cron admission changed"
  | some admitted =>
    if admitted.runId ≠ runId then .error "Cron admission changed"
    else match admitted.manifest with
      | some manifest =>
        if o.host.digest manifest ≠ o.host.digest body then .error "Cron terminal result changed" else .ok (true,s)
      | none =>
        let recorded := { admitted with manifest := some body }
        if callbackAllowed o latest admitted body then do
          s.resolveToolContext admitted.token
          .ok (false,s.putSchedule latest.id
            (latest.putExecution execution { recorded with callbackState := some .pending }))
        else
          .ok (false,(s.revokeToolContext admitted.token).putSchedule latest.id
            (latest.putExecution execution { recorded with revoked := true }))

/-- The end of a callback: its disposition is kept and its token withdrawn. -/
def State.closeCallback (id execution : String) (disposition : Execution → Option CallbackState) :
    Except Err (Unit × State) := do
  let latest ← s.schedule id
  match ← latest.entry execution with
  | none => .error "Cannot set properties of undefined"
  | some current =>
    .ok ((),(s.revokeToolContext current.token).putSchedule id
      (latest.putExecution execution { current with callbackState := disposition current, revoked := true }))

def State.finishCallback (id execution : String) (state : CallbackState) : Except Err (Unit × State) :=
  s.closeCallback id execution fun _ => some state

/-- A crash after the callback was admitted leaves its outcome unknown. -/
def State.withdrawCallback (id execution : String) : Except Err (Unit × State) :=
  s.closeCallback id execution fun current =>
    if current.callbackState = some .pending then some .unknown else current.callbackState

def exec (o : Options) : (cmd : Cmd) → State → cmd.Result × State
  | .prepare context spec id,s => transaction s (s.prepare o context spec id)
  | .activate id jobId,s => transaction s (s.activate id jobId)
  | .requestControl context id action,s => transaction s (s.requestControl context id action)
  | .finishControl id action,s => transaction s (s.finishControl id action)
  | .hostCancel input id,s => transaction s (s.hostCancel input id)
  | .discover id discovered,s => transaction s (s.discover id discovered)
  | .hostCleanup id nativeCleanup reason,s => transaction s (s.hostCleanup id nativeCleanup reason)
  | .saveBinding id state reason,s => transaction s (s.saveBinding id state reason)
  | .admitExecution credential job execution,s => transaction s (s.admitExecution o credential job execution)
  | .recordResult credential execution runId body,s =>
    transaction s (s.recordResult o credential execution runId body)
  | .finishCallback id execution state,s => transaction s (s.finishCallback id execution state)
  | .withdrawCallback id execution,s => transaction s (s.withdrawCallback id execution)

/-! ## Calls -/

/-- Requests to native cron: POST jobs, GET lookup by key, GET a job, POST a control,
POST bindings and GET a result. -/
inductive Request where
  | createJob (key name schedule instruction : String) (credential : Credential)
  | lookup (key : String)
  | job (id : String)
  | control (job : String) (action : Control)
  | binding (key : String) (credential : Credential)
  | result (job execution : String)

/-- An answer with the length of its text and what parsing gives. -/
structure Response where
  ok : Bool
  length : Nat
  parsed : Except Err Json

/-- `turn` waits for one's turn on a key; it may come at any time. -/
inductive Call where
  | turn (key : String)
  | fetch (request : Request) (timeoutMs : Nat)
  | onComplete (context : ToolContext) (manifest : Json) (token : Token)

@[reducible] def Call.Reply : Call → Type
  | .turn _ => Unit
  | .fetch _ _ => Except Err Response
  | .onComplete _ _ _ => Except Err Unit

inductive Shock where
  | policy (policy : Policy)
  | clock (now : Nat)

def shock : Shock → State → State
  | .policy policy,s => { s with policy }
  | .clock now,s => { s with now }

@[reducible] def coordinator (o : Options) : Signature where
  State := State
  Err := Err
  Cmd := Cmd
  Result := Cmd.Result
  exec := exec o
  Call := Call
  Reply := Call.Reply
  Shock := Shock
  shock := shock
  restart := id

abbrev M (o : Options) (α : Type) := Async (coordinator o) α

section programs

variable {o : Options} {α : Type}

abbrev orThrow (r : Except Err α) : M o α := @Async.lift (coordinator o) α r

abbrev refuse (e : Err) : M o α := @Async.lift (coordinator o) α (.error e)

abbrev require (f : State → Except Err α) : M o α := @Async.check (coordinator o) α f

abbrev commit (cmd : Cmd) : M o cmd.Result := @Async.act (coordinator o) cmd

def clock : M o Nat := @Async.look (coordinator o) Nat State.now

/-- One operation at a time for each key. -/
def serial (key : String) (operation : M o α) : M o α := do
  let _ ← @Async.call (coordinator o) (.turn key)
  Async.await operation

def accepted (response : Response) : Except Err Json :=
  if response.length > 1048576 then .error "Oversized cron management response"
  else do
    let data ← object (some (← response.parsed))
    if !response.ok || !Json.strictEq (data.field? "ok") (some (.bool true)) then
      .error "Cron management rejected request"
    else .ok data

def Options.timeout (o : Options) : Nat := o.timeoutMs.getD 5000

def request (r : Request) (timeoutMs : Nat) : M o Json := do
  let answer ← @Async.call (coordinator o) (.fetch r timeoutMs)
  let response ← orThrow answer
  orThrow (accepted response)

def validateScope (context : ToolContext) : M o Unit := require fun s => s.policy.validateScope context

/-! ## Creation and controls -/

def jobOf (response : Json) : Except Err String := do
  let job ← object (response.field? "job")
  textField (job.field? "id")

/-- Intent and credential are durable before the native creation; repeating it uses the
same key. -/
def create (context : ToolContext) (input : ScheduleSpec) : M o ScheduleRecord := do
  let spec ← orThrow (checkSpec input)
  let id := scheduleId o.host context spec
  serial id do
    let record ← orThrow (← commit (.prepare context spec id))
    if record.nativeJobId.isSome || record.state = .cancelled || record.pendingControl = some .cancel then pure record
    else do
      let response ← Async.await
        (request (.createJob record.key spec.name spec.schedule spec.instruction record.credential) o.timeout)
      let jobId ← orThrow (jobOf response)
      let activated ← orThrow (← commit (.activate id jobId))
      validateScope context
      pure activated

def ScheduleRecord.inspection (record : ScheduleRecord) : Request :=
  match record.nativeJobId with
  | some job => .job job
  | none => .lookup record.key

def inspect (context : ToolContext) (id : String) : M o (ScheduleRecord × Json) := do
  let id ← orThrow (text id)
  let record ← require fun s => s.owned context id
  let native ← Async.await (request record.inspection o.timeout)
  validateScope context
  pure (record,native)

def control (context : ToolContext) (id : String) (action : Control) : M o ScheduleRecord := do
  let id ← orThrow (text id)
  serial id do
    let job ← orThrow (← commit (.requestControl context id action))
    let _ ← Async.await (request (.control job action) o.timeout)
    let settled ← orThrow (← commit (.finishControl id action))
    validateScope context
    pure settled

/-! ## Cancellation by the host -/

def checkOptional : Option String → Except Err (Option String)
  | none => .ok none
  | some value => do .ok (some (← text value))

def checkCancellation (input : HostCancellationInput) : Except Err HostCancellationInput := do
  let taskId ← text input.taskId
  let scheduleId ← checkOptional input.scheduleId
  let key ← checkOptional input.key
  let nativeJobId ← checkOptional input.nativeJobId
  let expectedNativeJobId ← checkOptional input.expectedNativeJobId
  if scheduleId.isNone && key.isNone && nativeJobId.isNone then
    .error "Exact schedule identity is required for host cancellation"
  else .ok { taskId, scheduleId, key, nativeJobId, expectedNativeJobId }

def State.cancellationTarget (o : Options) (s : State) (input : HostCancellationInput) : Except Err String :=
  match (s.schedules.list o.rank).filter input.fits with
  | [record] => .ok record.id
  | _ => .error "Host cancellation schedule identity is absent or ambiguous"

/-- The native job a lookup shows, or its verified absence. -/
def lookedUp (record : ScheduleRecord) (expectedNativeJobId : Option String) (found : Json) :
    Except Err (Option String) :=
  if !Json.strictEq (found.field? "key") (some (.str record.key)) then
    .error "Native schedule lookup identity changed"
  else if isNull (found.field? "job") &&
      Json.strictEq (found.field? "absenceVerified") (some (.bool true)) then .ok none
  else do
    let job ← object (found.field? "job")
    let discovered ← textField (job.field? "id")
    if !Json.strictEq (found.field? "scopeVerified") (some (.bool true)) ||
        !Json.strictEq (job.field? "required_admission") (some (.str "neurobro")) ||
        !Json.strictEq (job.field? "admission_key") (some (.str record.key)) then
      .error "Native schedule lookup scope changed"
    else if expectedNativeJobId.any (· ≠ discovered) then
      .error "Native schedule lookup differs from independent readback"
    else .ok (some discovered)

/-- What a cancellation knows of the native side. -/
structure CleanupProgress where
  record : ScheduleRecord
  nativeCleanup : Cleanup := .unknown
  reason : Option CancellationReason := none

def discoverJob (record : ScheduleRecord) (id : String) (expected : Option String) : M o CleanupProgress := do
  let found ← Async.await (request (.lookup record.key) o.timeout)
  match ← orThrow (lookedUp record expected found) with
  | none => pure { record, nativeCleanup := .verified }
  | some discovered => do
    let updated ← orThrow (← commit (.discover id discovered))
    pure { record := updated }

def orElse (m : M o α) (handler : M o α) : M o α := do
  match ← Async.settle m with
  | .ok a => pure a
  | .error _ => handler

def findJob (record : ScheduleRecord) (id : String) (expected : Option String) : M o CleanupProgress :=
  if record.nativeJobId.isSome then pure { record }
  else orElse (discoverJob record id expected) (pure { record, reason := some .nativeJobIdentityUnknown })

def cancelNative (p : CleanupProgress) (job : String) : M o CleanupProgress := do
  let _ ← Async.await (request (.control job .cancel) o.timeout)
  pure { p with nativeCleanup := .verified }

def cleanUp (p : CleanupProgress) : M o CleanupProgress :=
  match p.record.nativeJobId with
  | none => pure p
  | some job =>
    if p.nativeCleanup = .verified then pure p
    else orElse (cancelNative p job) (pure { p with reason := some .nativeCancelUnconfirmed })

def cancelFromHost (input : HostCancellationInput) : M o ScheduleRecord := do
  let input ← orThrow (checkCancellation input)
  let id ← require fun s => s.cancellationTarget o input
  serial id do
    let record ← orThrow (← commit (.hostCancel input id))
    if record.cleanedUp then pure record
    else do
      let found ← findJob record id input.expectedNativeJobId
      let cleaned ← cleanUp found
      orThrow (← commit (.hostCleanup id cleaned.nativeCleanup cleaned.reason))

/-! ## Restoration -/

def confirmBinding (id : String) (record : ScheduleRecord) (timeoutMs : Nat) : M o Unit := do
  let result ← Async.await (request (.binding record.key record.credential) timeoutMs)
  if (result.field? "key").isSome && !Json.strictEq (result.field? "key") (some (.str record.key)) then
    refuse "Native binding identity changed"
  else do
    validateScope record.binding
    orThrow (← commit (.saveBinding id .verified none))

/-- The binding is quarantined before the request leaves. -/
def restore (id : String) (deadline : Nat) : M o Unit :=
  serial id do
    let record ← require fun s => s.schedule id
    if record.state = .cancelled || record.nativeJobId.isNone then pure ()
    else match ← Async.settle (validateScope record.binding) with
      | .error _ => pure ()
      | .ok _ => do
        orThrow (← commit (.saveBinding id .unknown (some .restoreUnconfirmed)))
        let now ← clock
        if deadline ≤ now then orThrow (← commit (.saveBinding id .unknown (some .restoreDeferred)))
        else orElse (confirmBinding id record (min (deadline - now) o.timeout)) do
          orThrow (← commit (.saveBinding id .unknown (some .restoreUnconfirmed)))

/-- Every record is restored by a fiber of its own; at most four of them run at a time in
the source, in the order of the list. -/
def restoreBindings : M o Unit := do
  let records ← @Async.look (coordinator o) _ fun s => s.schedules.list o.rank
  let now ← clock
  let fibers ← Async.gather records fun record => Async.fork (restore record.id (now + 15000))
  Async.each fibers Async.join

/-! ## Executions -/

def admitRequest (credential : Credential) (input : Json) : M o Token := do
  let named ← orThrow (admission input)
  orThrow (← commit (.admitExecution credential named.1 named.2))

/-- What a completion is about: the schedule and the admitted execution. -/
structure Admitted where
  record : ScheduleRecord
  entry : Execution

def State.admitted (o : Options) (s : State) (credential : Credential) (job execution : String) :
    Except Err Admitted := do
  let record ← s.credentialRecord o credential
  match ← record.entry execution with
  | none => .error "Cron result has no matching admission"
  | some entry =>
    if record.nativeJobId ≠ some job then .error "Cron result has no matching admission" else .ok ⟨record,entry⟩

def State.callbackOf (s : State) (id execution : String) : Except Err (Option CallbackState) := do
  let record ← s.schedule id
  match ← record.entry execution with
  | none => .error "Cannot read properties of undefined (reading 'callbackState')"
  | some entry => .ok entry.callbackState

/-- The callback's authority, checked again in the segment that starts it. -/
def State.callbackAuthority (o : Options) (s : State) (credential : Credential) (execution : String) :
    Except Err Unit := do
  let latest ← s.credentialRecord o credential
  match ← latest.entry execution with
  | none => .error "Cannot read properties of undefined (reading 'revoked')"
  | some current =>
    if current.revoked || latest.state ≠ .active || latest.pendingControl.isSome || latest.bindingUnknown then
      .error "Schedule callback authority changed"
    else s.resolveToolContext current.token

def callBack (a : Admitted) (credential : Credential) (execution : String) (body : Json) : M o Unit := do
  require fun s => s.callbackAuthority o credential execution
  let answer ← @Async.call (coordinator o)
    (.onComplete { a.record.binding with runId := a.entry.runId } body a.entry.token)
  orThrow answer

def callbackState (outcome : Except Err Unit) : CallbackState :=
  match outcome with
  | .ok _ => .verified
  | .error _ => .unknown

/-- A callback that fails is not repeated: the result is already saved. -/
def runCallback (a : Admitted) (credential : Credential) (execution : String) (body : Json) : M o Unit := do
  let outcome ← Async.settle (callBack a credential execution body)
  orThrow (← commit (.finishCallback a.record.id execution (callbackState outcome)))

def recorded (a : Admitted) (credential : Credential) (job execution : String) (body : Json) : M o Bool := do
  let response ← Async.await (request (.result job execution) o.timeout)
  let native ← orThrow (nativeManifest response)
  orThrow (checkManifest o.host job execution body native)
  validateScope a.record.binding
  orThrow (← commit (.recordResult credential execution a.entry.runId body))

structure ScheduleCompletion where
  replayed : Bool
  callback : Option CallbackState

def ScheduleCompletion.reconciliationRequired (c : ScheduleCompletion) : Bool := c.callback.any (· ≠ .verified)

def dispose (a : Admitted) (credential : Credential) (execution : String) (body : Json) (replayed : Bool) :
    M o Unit :=
  if replayed then do orThrow (← commit (.withdrawCallback a.record.id execution))
  else if o.onComplete then do
    let disposition ← require fun s => s.callbackOf a.record.id execution
    if disposition = some .pending then runCallback a credential execution body else pure ()
  else pure ()

def completionKey (job execution : String) : String := "completion:" ++ job ++ ":" ++ execution

def complete (credential : Credential) (input : Json) : M o ScheduleCompletion := do
  let body ← orThrow (object (some input))
  let job ← orThrow (textField (body.field? "job_id"))
  let execution ← orThrow (executionId (body.field? "execution_id"))
  serial (completionKey job execution) do
    let a ← require fun s => s.admitted o credential job execution
    let replayed ← recorded a credential job execution body
    dispose a credential execution body replayed
    let callback ← require fun s => s.callbackOf a.record.id execution
    pure ⟨replayed,callback⟩

end programs

inductive Op where
  | create (context : ToolContext) (input : ScheduleSpec)
  | inspect (context : ToolContext) (id : String)
  | control (context : ToolContext) (id : String) (action : Control)
  | cancelFromHost (input : HostCancellationInput)
  | restoreBindings
  | admitRequest (credential : Credential) (input : Json)
  | complete (credential : Credential) (input : Json)

def discard {o : Options} {α : Type} (m : M o α) : M o Unit := do
  let _ ← m
  pure ()

def operation (o : Options) : Op → M o Unit
  | .create context input => discard (create context input)
  | .inspect context id => discard (inspect context id)
  | .control context id action => discard (control context id action)
  | .cancelFromHost input => discard (cancelFromHost input)
  | .restoreBindings => restoreBindings
  | .admitRequest credential input => discard (admitRequest credential input)
  | .complete credential input => discard (complete credential input)

def body (o : Options) (op : Op) : Proc (coordinator o) := operation o op .done

/-- The coordinator over an empty store. -/
def boot (policy : Policy) (now : Nat) : State := { policy, now }

def Reachable (o : Options) (w : World (coordinator o)) : Prop :=
  ∃ policy now, World.Leads (body o) (.initial (boot policy now)) w

end Neurobro.Schedules
