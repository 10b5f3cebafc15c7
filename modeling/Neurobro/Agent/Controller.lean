import Neurobro.Agent.Broker

/-! The controller: admission of a task's present revision, settlement of what ran
before it, cancellation, holding and correction. -/
namespace Neurobro.Agent

open Coop

variable {o : Options}

/-! ## Owned child executions -/

def unverifiedChildren : String := "Owned child execution/effects settlement is unverified"

/-- Whether the children of one revision are known to have stopped. -/
def stopChildren (taskId : TaskId) (reason : String) (revision : Nat) : M o Bool := do
  let old ← read fun s => s.store.childStops.get (taskId,revision)
  if !o.onTaskStop then pure (old.all fun stop => stop.state = .settled)
  else
    commit (.putChildStop { taskId,revision,state := .pending,reason := some reason })
    match ← ask (.taskStop taskId reason revision) with
    | .ok result =>
      let state : StopState := if result.settled then .settled else .unknown
      let told := if result.settled then none else some unverifiedChildren
      commit (.putChildStop { taskId,revision,state,reason := result.reason <|> told })
      pure result.settled
    | .error e =>
      let reason := some ("Owned child stop unknown: " ++ e.message)
      commit (.putChildStop { taskId,revision,state := .unknown,reason })
      pure false

def hold (taskId : TaskId) (reason : String) (resumeWhenSettled : Bool := false) : M o Unit := do
  let intent ← require (·.requireTask taskId)
  orThrow (← commit (.holdTask taskId reason resumeWhenSettled))
  let _ ← Async.await (stopChildren taskId reason intent.revision)

/-! ## Authority -/

/-- The run identity of a context outside any run. -/
def authorityRun (o : Options) (taskId : TaskId) (revision : Nat) : RunId :=
  "authority:" ++ taskId.text o ++ ":" ++ toString revision

/-- Refresh the scope of the present grant; a change of task or grant meanwhile is an error. -/
def prepareTaskAuthority (taskId : TaskId) : M o ToolContext := do
  let (intent,grant) ← require fun s => do
    let intent ← s.requireTask taskId
    let grant ← s.requireGrant intent.grantId
    if grant.revokedAt.isSome then .error (.authority "Revoked authority cannot be refreshed")
    else .ok (intent,grant)
  let baseline ← commit (.baseline intent grant)
  let prepared ← if o.prepareAuthority then do
      let prepared ← orThrow (← ask (.prepareAuthority intent))
      pure (some prepared)
    else Async.await (pure none)
  orThrow (← commit (.refreshGrant intent grant baseline prepared))
  require fun s => do
    let current ← s.requireGrant intent.grantId
    let run := s.store.runs.get (taskId,intent.revision)
    .ok { taskId
          intentRevision := intent.revision
          grantId := current.id
          grantRevision := current.revision
          runId := (run.map (·.binding.runId)).getD (authorityRun o taskId intent.revision) }

/-! ## Runs -/

def RunState.recognized : RunState → Bool
  | .unrecognized _ => false
  | _ => true

def checkSnapshot (snapshot : RunSnapshot) (taskId : TaskId) (revision : Nat) (key : String) :
    Except Err Unit :=
  let binding := snapshot.binding
  if binding.taskId ≠ taskId ∨ binding.intentRevision ≠ revision ∨ binding.idempotencyKey ≠ key ∨
      binding.runId = "" then
    .error (.authority "Engine response does not match the submitted task/revision/operation")
  else if snapshot.observedAt.isNone then
    .error (.error "Engine snapshot lacks a valid observation date")
  else if !snapshot.state.recognized then .error (.error "Invalid engine run state")
  else .ok ()

def acceptSnapshot (snapshot : RunSnapshot) (taskId : TaskId) (revision : Nat) (key : String) :
    M o Unit := do
  orThrow (checkSnapshot snapshot taskId revision key)
  commit (.putRun (taskId,revision) snapshot)

/-- Cancel one run and record what the engine answers about that very run. -/
def cancelRun (binding : RunBinding) (taskId : TaskId) (revision : Nat) (key : String) :
    M o RunSnapshot := do
  let cancelled ← orThrow (← ask (.cancel binding))
  if cancelled.binding.runId ≠ binding.runId then
    refuse (.authority "Cancel returned a different run")
  else
    acceptSnapshot cancelled taskId revision key
    pure cancelled

/-- A run whose state could not be learned. -/
def markUnknown (snapshot : RunSnapshot) (taskId : TaskId) (reason : String) : M o Unit := do
  let now ← read (·.now)
  let unknown := { snapshot with
    state := .unknown
    observedAt := some now
    reason := some reason }
  commit (.putRun (taskId,snapshot.binding.intentRevision) unknown)

def inspectRun (snapshot : RunSnapshot) : M o Unit := do
  let binding := snapshot.binding
  let inspected ← Async.settle do
    let updated ← orThrow (← ask (.inspect binding))
    if updated.binding.runId ≠ binding.runId then
      refuse (.authority "Inspected engine run changed its registered binding")
    else acceptSnapshot updated binding.taskId binding.intentRevision binding.idempotencyKey
  match inspected with
  | .ok _ => pure ()
  | .error e => markUnknown snapshot binding.taskId e.message

/-- Inspections of one run are shared while they last. -/
def refresh (snapshot : RunSnapshot) : M o Unit := do
  let key := snapshot.binding.admissionKey
  match ← read fun s => (s.memory.activePolls.find? (·.1 = key)).map Prod.snd with
  | some action => Async.join action
  | none =>
    let action ← Async.fork (inspectRun snapshot)
    commit (.setPoll key action)
    let settled ← Async.settle (Async.join action)
    commit (.clearPoll key)
    orThrow settled

/-! ## Admission -/

def submissionKey (o : Options) (intent : TaskIntent) : String :=
  "neurobro:" ++ intent.id.text o ++ ":" ++ toString intent.revision

/-- The latest run of an earlier revision. -/
def State.previousRun (o : Options) (s : State) (intent : TaskIntent) : Option RunSnapshot :=
  let earlier := (s.runs o).filter fun r =>
    r.binding.taskId = intent.id ∧ r.binding.intentRevision < intent.revision
  (earlier.insertionSort fun a b => b.binding.intentRevision ≤ a.binding.intentRevision).head?

def engineInput (intent : TaskIntent) (admission : Admission) (prepared : PreparedInput)
    (previous : Option RunSnapshot) : EngineInput :=
  let continued := if prepared.freshSession then none else previous
  { taskId := intent.id
    intentRevision := intent.revision
    idempotencyKey := admission.key
    instruction := intent.instruction
    toolContext := admission.token
    sessionId := continued.bind (·.binding.sessionId)
    stagedFiles := prepared.stagedFiles
    context := match prepared.context with
      | some text => .prepared text
      | none => .derived intent.source intent.contextRefs intent.artifactRefs
          (continued.bind (·.output)) (continued.map (·.binding.runId)) }

/-- Input preparation can be asynchronous; authority is checked again before the
engine can start. -/
def prepareSubmission (intent : TaskIntent) (token : Token) : M o PreparedInput := do
  let prepared ← if o.prepareInput then orThrow (← ask (.prepareInput intent))
    else Async.await (pure {})
  let _ ← require (·.resolve token)
  pure prepared

/-- The engine has answered. A cancellation or correction may have raced the answer:
the real binding is kept and that run is stopped. -/
def bindSubmission (intent : TaskIntent) (admission : Admission) (snapshot : RunSnapshot) : M o Unit := do
  acceptSnapshot snapshot intent.id intent.revision admission.key
  commit (.putAdmission { admission with state := .bound })
  match ← commit (.bindToken admission.token snapshot.binding) with
  | .ok _ => pure ()
  | .error e =>
    if !e.isAuthority then refuse e
    else
      -- The original binding is preserved for later inspection; no second dispatch.
      let _ ← Async.settle (cancelRun snapshot.binding intent.id intent.revision admission.key)

/-- The reservation is this fiber's own; only it may submit. -/
def submitReserved (intent : TaskIntent) (admission : Admission) : M o Unit := do
  match ← Async.settle (prepareSubmission intent admission.token) with
  | .error e =>
    commit (.putAdmission { admission with state := .blocked, reason := some e.message })
    Async.await (hold intent.id ("Input preparation blocked: " ++ e.message))
  | .ok prepared =>
    let previous ← read fun s => s.previousRun o intent
    let submitted ← Async.settle do
      let snapshot ← orThrow (← ask (.submit (engineInput intent admission prepared previous)))
      bindSubmission intent admission snapshot
    match submitted with
    | .ok _ => pure ()
    | .error e => commit (.putAdmission { admission with state := .unknown, reason := some e.message })

/-- Reserve the revision under a fresh token; losing the reservation ends the admission. -/
def admitPrepared (intent : TaskIntent) : M o Unit := do
  let grant ← require (·.requireGrant intent.grantId)
  if ← read fun s => grant.revokedAt.isSome || s.passed grant.expiresAt then
    Async.await (hold intent.id "Task authority expired before admission")
  else
    let key := submissionKey o intent
    let context : ToolContext :=
      { taskId := intent.id
        intentRevision := intent.revision
        grantId := grant.id
        grantRevision := grant.revision
        runId := "admission:" ++ key }
    let token ← orThrow (← commit (.issue context))
    let now ← read (·.now)
    let admission : Admission :=
      { taskId := intent.id,revision := intent.revision,key,token,state := .reserved,createdAt := now }
    if ← commit (.reserve admission) then submitReserved intent admission else pure ()

def admitIntent (intent : TaskIntent) : M o Unit := do
  let actual ← require (·.requireTask intent.id)
  if actual.revision ≠ intent.revision then pure ()
  else if ← read fun s => s.childrenUnsettled o intent.id then
    Async.await (hold intent.id "Owned child execution/effects settlement is unresolved" true)
  else
    let authority ← Async.settle (Async.await (prepareTaskAuthority intent.id))
    let actual ← require (·.requireTask intent.id)
    if actual.revision ≠ intent.revision then pure ()
    else match authority with
      | .error e => Async.await (hold intent.id ("Authority preparation blocked: " ++ e.message))
      | .ok _ => admitPrepared intent

/-! ## Cancellation and correction -/

def applyCancellation (taskId : TaskId) : M o (Option TaskStatus) := do
  let intent ← require (·.requireTask taskId)
  orThrow (← commit (.cancelTask taskId))
  let _ ← Async.await (stopChildren taskId "Owner cancelled task" intent.revision)
  let live ← read fun s => (s.runs o).filter fun r => r.binding.taskId = taskId ∧ !terminal r.state
  Async.each live fun snapshot => do
    let binding := snapshot.binding
    match ← Async.settle (cancelRun binding taskId binding.intentRevision binding.idempotencyKey) with
    | .ok _ => pure ()
    | .error e => markUnknown snapshot taskId ("Cancel settlement unknown: " ++ e.message)
  read (·.statusFor o taskId)

/-- Stop the run of the corrected revision; what cannot be shown to have ended holds the task. -/
def stopPrior (taskId : TaskId) (current : Option RunSnapshot) : M o Bool := do
  match current.filter (!terminal ·.state) with
  | none => pure true
  | some snapshot =>
    let binding := snapshot.binding
    let stopped ← Async.settle do
      let ended ← cancelRun binding taskId binding.intentRevision binding.idempotencyKey
      if terminal ended.state then pure true
      else
        Async.await (hold taskId "Correction saved; old engine execution has not settled" true)
        pure false
    match stopped with
    | .ok proceed => pure proceed
    | .error _ =>
      Async.await (hold taskId "Correction saved; old engine cancellation is unknown" true)
      pure false

/-- Only the newest revision resumes, and only when nothing before it is open. -/
def resumeCorrection (taskId : TaskId) (intent : TaskIntent) : M o Unit := do
  let actual ← require (·.requireTask taskId)
  if actual.revision ≠ intent.revision then pure ()
  else if ← read fun s => s.unresolvedPriorWork o intent then
    Async.await (hold taskId "Correction saved; earlier execution or admission is unresolved" true)
  else
    commit (.releaseControl taskId)
    if ← read (·.memory.replaying) then pure () else Async.await (admitIntent intent)

/-- What a correction does once its barrier is saved. -/
def settleCorrection (request : CorrectionRequest) (before : TaskIntent) (current : Option RunSnapshot)
    (intent : TaskIntent) : M o Unit := do
  let taskId := request.taskId
  -- Steering must be a supported boundary: no second execution beside an unresolved old run.
  let childrenSettled ← Async.await (stopChildren taskId "Parent task corrected" before.revision)
  if !(← stopPrior taskId current) then pure ()
  else if ← read fun s => s.effectsUnsettled o taskId then
    Async.await (hold taskId "Correction saved; possible external effects must be reconciled" true)
  else if ← read fun s => current.isNone &&
      (s.store.admissions.get (taskId,before.revision)).any (·.state.unresolved) then
    Async.await (hold taskId "Correction saved; original engine admission is unresolved" true)
  else if !childrenSettled then pure ()
  else resumeCorrection taskId intent

def applyCorrection (request : CorrectionRequest) : M o (Option TaskStatus) := do
  let taskId := request.taskId
  if !request.contextRefresh && trim request.instruction = "" then
    refuse (.error "Correction instruction is empty")
  else
    let before ← require (·.requireTask taskId)
    if ← read (·.changeApplied request) then read (·.statusFor o taskId)
    else
      let current ← read fun s => s.store.runs.get (taskId,before.revision)
      let corrected ← orThrow (← commit (.correctTask request))
      settleCorrection request before current corrected.intent
      read (·.statusFor o taskId)

/-- What a held correction still waits for. -/
def State.resumable (o : Options) (s : State) (intent : TaskIntent) : Bool :=
  !s.childrenUnsettled o intent.id &&
    !((s.admissions o).any fun a => a.taskId = intent.id ∧ a.revision < intent.revision ∧ a.state.unresolved) &&
    !((s.runs o).any fun r => r.binding.taskId = intent.id ∧ !terminal r.state) &&
    !s.effectsUnsettled o intent.id

/-- The control is the listed one; the store may hold another by now. -/
def resumeControl (control : Control) : M o Unit := do
  if !control.resumeWhenSettled || control.cancelledAt.isSome then pure ()
  else
    let intent ← require (·.requireTask control.taskId)
    if !(← read fun s => s.resumable o intent) then pure ()
    else
      orThrow (← commit (.resumeTask intent.id))
      let restored ← require (·.requireTask intent.id)
      Async.await (admitIntent restored)

def resumeSettledCorrections : M o Unit := do
  let controls ← read fun s => s.controls o
  Async.each controls resumeControl

end Neurobro.Agent
