import Neurobro.Agent.Controller

/-! Observations: whose they are, what they command, and the recovery that replays
them before anything new is admitted. -/
namespace Neurobro.Agent

open Coop

variable {o : Options}

/-! ## Provenance -/

def authenticate (o : Options) (obs : Observation) : Bool :=
  obs.ref.accountId = o.accountId && obs.authorId = some o.ownerId && obs.outgoing && !obs.forwarded &&
    !obs.viaBot

def deliveringCapabilities : List String :=
  ["telegram.send","telegram.message.send","message.send","telegram.media.send","telegram.poll.create",
    "telegram.schedule.create"]

/-- Native receipt identity, independent of message text, captions or formatting. -/
def matchesOwnMessageReceipt (effect : Effect) (obs : Observation) : Bool :=
  let receipt := effect.receipt
  deliveringCapabilities.contains effect.capability && obs.outgoing && effect.resource = obs.ref.peerId &&
    strField "peerId" receipt = some obs.ref.peerId &&
    (strField "messageId" receipt = some obs.ref.messageId ||
      strField "tempMessageId" receipt = some obs.ref.messageId)

namespace State

/-- Equal text is never evidence: the owner can repeat the agent's words. -/
def ownOutput (o : Options) (s : State) (obs : Observation) : Option OwnOutput :=
  let named (effect : Effect) : OwnOutput := { ref := obs.ref,taskId := effect.taskId,effectId := some effect.id }
  match s.store.ownOutputs.get (refKey obs.ref) with
  | some saved => some saved
  | none =>
    match obs.agentEffectId.bind s.store.effects.get with
    | some effect => some (named effect)
    | none => ((s.effects o).find? fun e => matchesOwnMessageReceipt e obs).map named

/-- Delayed old follow-ups cannot supersede a newer owner amendment. Message numbers
order the messages of one room that share a second. -/
def staleOwnerChange (s : State) (taskId : TaskId) (obs : Observation) : Bool :=
  match s.store.taskOwnerChanges.get taskId with
  | none => false
  | some previous =>
    match obs.issuedAt,previous.authorizedAt with
    | some issued,some prior =>
      if issued ≠ prior then decide (issued < prior)
      else obs.kind ≠ .edit && obs.ref.peerId = previous.ref.peerId &&
        match numeral? obs.ref.messageId,numeral? previous.ref.messageId with
        | some a,some b => decide (a < b)
        | _,_ => false
    | _,_ => false

end State

inductive TargetKind where
  | one
  | none
  | ambiguous
  deriving DecidableEq

structure Target where
  kind : TargetKind
  task : Option TaskIntent := .none

def Target.ofList : List TaskIntent → Target
  | [task] => ⟨.one,some task⟩
  | [] => ⟨.none,none⟩
  | _ => ⟨.ambiguous,none⟩

def TaskState.active : TaskState → Bool
  | .cancelled | .ready | .failed => false
  | _ => true

/-- A tag, else the message replied to, else the only active task. -/
def State.resolveTask (o : Options) (s : State) (obs : Observation) (command : String) : Target :=
  match taskTag command with
  | some tag => .ofList ((s.tasks o).filter fun t => !t.controlOnly && tag.toList.isPrefixOf (t.id.text o).toList)
  | none =>
    let own := (obs.replyTo.bind fun ref => s.store.ownOutputs.get (refKey ref)).filter (!·.controlOnly)
    let source := obs.replyTo.bind s.taskForSource
    match own,source with
    | some own,_ => ⟨.one,s.store.tasks.get own.taskId⟩
    | none,some source => ⟨.one,some source⟩
    | none,none => .ofList (((s.status o).filter (·.state.active)).map (·.intent))

/-- Route authority is a leading directive, never a phrase inside the task material. -/
def routeFor (o : Options) (obs : Observation) (instruction : String) (task : Option TaskIntent := none) :
    Route :=
  let directive := trim instruction
  let directive := (afterPrefix o.fold o.prefixText directive).getD directive
  let here : Route :=
    { peerId := obs.ref.peerId,threadId := obs.ref.threadId,replyToMessageId := some obs.ref.messageId }
  if saysHere o.fold directive then here
  else match task with
    | some t =>
      if saysOrigin o.fold directive then
        { peerId := t.source.peerId,threadId := t.source.threadId,replyToMessageId := some t.source.messageId }
      else o.privateRoute
    | none => o.privateRoute

/-! ## Withdrawing public drafts -/

def manualSpeech : String := "Owner manually spoke in origin; external draft requires renewed instruction"

/-- The three writes of one task are not one transaction. -/
def invalidateOriginDraft (obs : Observation) (intent : TaskIntent) : M o Unit := do
  if intent.source.peerId ≠ obs.ref.peerId ∨ intent.route.peerId = o.privateRoute.peerId ∨
      sameRef intent.source obs.ref then pure ()
  else
    let grant ← require (·.requireGrant intent.grantId)
    if grant.revokedAt.isSome then pure ()
    else
      orThrow (← commit (.narrowGrant intent.id obs.ref.peerId))
      revokeTask intent.id
      commit (.reviewOrigin { taskId := intent.id,ref := obs.ref,reason := manualSpeech })

def invalidateOriginDrafts (obs : Observation) : M o Unit := do
  let tasks ← read fun s => s.tasks o
  Async.each tasks (invalidateOriginDraft obs)

/-! ## Commands -/

def ignored (reason : String) (taskId : Option TaskId := none) : IngestResult :=
  { disposition := .ignored,taskId,reason := some reason }

def ambiguous (reason : String) : IngestResult := { disposition := .ambiguous,reason := some reason }

/-- A result that ends with the status of its task. -/
def reported (disposition : Disposition) (taskId : TaskId) : M o IngestResult := do
  let status ← read fun s => (s.statusFor o taskId).toList
  pure { disposition,taskId := some taskId,status }

def newerChange : String := "Более новое уточнение уже сохранено; прежняя редакция не применяется."

/-- An owner's follow-up, unless a newer one has been saved. -/
def followUp (obs : Observation) (eventKey : EventKey) (taskId : TaskId) (instruction : String)
    (route : Route) (authorizedAt : Stamp) : M o IngestResult := do
  if ← read fun s => s.staleOwnerChange taskId obs then pure (ignored newerChange (some taskId))
  else
    let _ ← Async.await (applyCorrection
      { taskId,instruction,authorizedAt
        route := some route
        changeId := some eventKey
        observation := some obs })
    reported .corrected taskId

def acceptCommand (obs : Observation) (command : String) : M o IngestResult := do
  let (intent,created) ← commit (.createTask obs command (routeFor o obs command))
  if !created then
    let task ← read (·.taskForSource obs.ref)
    pure { disposition := .duplicate,taskId := task.map (·.id) }
  else
    if ← read (·.memory.replaying) then reported .accepted intent.id
    else
      Async.await (admitIntent intent)
      reported .accepted intent.id

/-- A cadence amendment in the natural room, or else a new task. -/
def handlePlain (obs : Observation) (eventKey : EventKey) (natural : Bool) (command : String)
    (target : Target) : M o IngestResult := do
  if natural && obs.replyTo.isNone && isCadenceFollowup o.fold command then
    if target.kind = .ambiguous then
      pure (ambiguous "Ответь на сообщение о нужной задаче, чтобы уточнить её период.")
    else
      let policy ← read (·.policy.canApplyImplicitCorrection)
      match target.task.filter fun t => policy.all fun allows => allows t.id with
      | some task => followUp obs eventKey task.id command (routeFor o obs command (some task)) obs.sentAt
      | none => acceptCommand obs command
  else acceptCommand obs command

def handleCommand (obs : Observation) (eventKey : EventKey) (natural : Bool) (command : String) :
    M o IngestResult := do
  let target ← read fun s => s.resolveTask o obs command
  let tagged := (taskTag command).isSome
  if isStatus o.fold command then
    if target.kind = .ambiguous ∨ (tagged ∧ target.task.isNone) then
      pure (ambiguous "Choose a registered task ID or reply to its card")
    else match target.task with
      | some task => reported .status task.id
      | none => do
        let status ← read (·.status o)
        pure { disposition := .status,status }
  else if isStop o.fold command then
    match target.task with
    | none => pure (ambiguous "Choose the task to cancel")
    | some task => do
      let _ ← Async.await (applyCancellation task.id)
      reported .cancelled task.id
  else if isCorrect o.fold command ∨ (target.task.isSome ∧ tagged) then
    match target.task with
    | none => pure (ambiguous "Choose the task to correct")
    | some task =>
      followUp obs eventKey task.id (withoutTags command) (routeFor o obs command (some task)) obs.sentAt
  else
    let bound ← read fun s => obs.replyTo.any fun ref =>
      (s.store.ownOutputs.get (refKey ref)).isSome || (s.taskForSource ref).isSome
    match target.task.filter fun _ => bound with
    | some task => followUp obs eventKey task.id command (routeFor o obs command (some task)) obs.sentAt
    | none => handlePlain obs eventKey natural command target

/-- The text of an authored message: bare attachments in the natural room speak too. -/
def authoredText (obs : Observation) (natural : Bool) : String :=
  let text := trim (obs.text.getD "")
  if text ≠ "" then text
  else if natural && !obs.attachments.isEmpty then "Разбери приложенный материал." else ""

def noCommand : String := "No command prefix or task-bound agent reply"

def isNatural (o : Options) (obs : Observation) : Bool := o.naturalControlPeerId = some obs.ref.peerId

def handleAuthored (obs : Observation) (eventKey : EventKey) (sourceTask : Option TaskIntent) :
    M o IngestResult := do
  let natural := isNatural o obs
  let text := authoredText obs natural
  let rest := afterPrefix o.fold o.prefixText text
  match sourceTask.filter fun _ => obs.kind = .edit with
  | some task =>
    if (rest.isNone && !natural) || text = "" then
      Async.await (hold task.id "Accepted command was edited out")
      pure { disposition := .held,taskId := some task.id }
    else followUp obs eventKey task.id ((rest.map trim).getD text) (routeFor o obs text) obs.issuedAt
  | none => do
    let replyTask ← read fun s => obs.replyTo.bind fun ref => s.store.ownOutputs.get (refKey ref)
    let replySourceTask ← read fun s => obs.replyTo.bind s.taskForSource
    if rest.isNone && !natural && replyTask.isNone && replySourceTask.isNone then
      invalidateOriginDrafts obs
      pure (ignored noCommand)
    else match sourceTask with
      | some task => pure { disposition := .duplicate,taskId := some task.id }
      | none =>
        if rest.isNone && !natural && replyTask.any (·.controlOnly) then
          pure (ignored "Control response has no active task")
        else
          let command := (rest.map trim).getD text
          if command = "" then pure (ignored "Empty command")
          else handleCommand obs eventKey natural command

def handleDelete (obs : Observation) : M o IngestResult := do
  if obs.forwarded || obs.viaBot || obs.authorId.any (· ≠ o.ownerId) then
    pure (ignored "Delete is not an authenticated account tombstone")
  else
    match ← read (·.taskForSource obs.ref) with
    | none => pure (ignored "Deleted message is not an accepted source")
    | some task =>
      Async.await (hold task.id "Source command was deleted; future effects are suspended")
      reported .held task.id

def handleObservation (obs : Observation) (eventKey : EventKey) : M o IngestResult := do
  if obs.sentAt.isNone ∨ obs.observedAt.isNone then
    pure (ignored "Observation has an invalid timestamp")
  else if ← read fun s => (s.ownOutput o obs).isSome then
    pure (ignored "Own output cannot command the agent")
  else if obs.kind = .delete then handleDelete obs
  else if !authenticate o obs then
    pure (ignored "Observation is not an authenticated direct owner command")
  else
    let sourceTask ← read (·.taskForSource obs.ref)
    if beginsWithQuotedCommand obs.authorityTextRanges obs.text o.prefixText then
      match sourceTask.filter fun _ => obs.kind = .edit with
      | some task =>
        Async.await (hold task.id "Accepted command was changed to quoted material; future effects are suspended")
        reported .held task.id
      | none => pure (ignored "Цитата или код не является прямым поручением владельца.")
    else handleAuthored obs eventKey sourceTask

/-- The note marks the instant the handling ends; it changes nothing. -/
def processObservation (obs : Observation) (eventKey : EventKey) : M o IngestResult := do
  let result ← handleObservation obs eventKey
  commit (.note (.handled obs result))
  pure result

/-! ## Recovery -/

/-- Replay order: arrival, or the clock and the key for rows without a sequence. -/
def ReceivedObservation.before (o : Options) (a b : ReceivedObservation) : Bool :=
  match a.sequence,b.sequence with
  | some m,some n => m ≤ n
  | _,_ => a.receivedAt < b.receivedAt ||
      (a.receivedAt = b.receivedAt && o.order.collation a.key ≤ o.order.collation b.key)

def replayObservation (pending : ReceivedObservation) : M o Unit := do
  if ← read fun s => (s.store.observationResults.get pending.key).isSome then pure ()
  else
    let result ← Async.await (processObservation pending.observation pending.key)
    commit (.conclude pending.key result)

/-- Durable revocations and intention changes precede any recovery admission. -/
def replayObservations : M o Unit := do
  let received ← read fun s => (s.observations o).insertionSort fun a b => a.before o b
  Async.each received replayObservation

/-- Reservations are listed and rewritten in one segment. -/
def loseReservations : M o Unit := do
  let admissions ← read fun s => s.admissions o
  Async.each admissions fun a =>
    if a.state = .reserved then commit (.loseReservation a.admissionKey) else pure ()

def stopOpenChildren (reason : String) : M o Unit := do
  let stops ← read fun s => s.unsettledStops o
  Async.each stops fun stop => do
    let _ ← Async.await (stopChildren stop.taskId (stop.reason.getD reason) stop.revision)

def restoreRun (snapshot : RunSnapshot) : M o Unit := do
  match ← read fun s => s.store.admissions.get snapshot.binding.admissionKey with
  | none => Async.await (refresh snapshot)
  | some admission =>
    let restored ← Async.settle do
      let _ ← require (·.resolve admission.token)
      if o.restoreToolBinding then orThrow (← ask (.restoreToolBinding snapshot.binding admission.token))
      else Async.await (pure ())
    match restored with
    | .ok _ => Async.await (refresh snapshot)
    | .error e => if e.isAuthority then Async.await (refresh snapshot) else refuse e

/-- Admit a task that was never admitted at its listed revision and has no control. -/
def recoverTask (intent : TaskIntent) : M o Unit := do
  if ← read fun s => (s.store.admissions.get (intent.id,intent.revision)).isSome ||
      (s.store.controls.get intent.id).isSome then pure ()
  else if ← read fun s => s.unresolvedPriorWork o intent then
    Async.await (hold intent.id "Recovery retained correction; prior execution is unresolved" true)
  else Async.await (admitIntent intent)

def recover : M o Unit := do
  let capabilities ← orThrow (← ask .capabilities)
  if !capabilities.durable || !capabilities.sessions then
    refuse (.error "Engine must provide durable runs and sessions; admission is disabled")
  else
    loseReservations
    commit (.setReplaying true)
    let replayed ← Async.settle replayObservations
    commit (.setReplaying false)
    orThrow replayed
    Async.await recoverEffects
    stopOpenChildren "Recover parent stop"
    let runs ← read fun s => s.runs o
    Async.each runs restoreRun
    let tasks ← read fun s => (s.tasks o).filter (!·.controlOnly)
    Async.each tasks recoverTask

/-- The first start runs the recovery; every later one shares its outcome. -/
def start : M o Unit := do
  match ← read (·.memory.startFiber) with
  | some recovery => Async.join recovery
  | none =>
    let recovery ← Async.fork recover
    commit (.setStart recovery)
    Async.join recovery

def ingest (obs : Observation) : M o IngestResult := do
  Async.await start
  if obs.ref.accountId ≠ o.accountId then pure (ignored "Wrong account")
  else
    let eventKey := obs.eventKey
    if ← read fun s => (s.store.observationResults.get eventKey).isSome then
      pure { disposition := .duplicate }
    else
      commit (.receive eventKey obs)
      let result ← Async.await (processObservation obs eventKey)
      commit (.conclude eventKey result)
      pure result

end Neurobro.Agent
