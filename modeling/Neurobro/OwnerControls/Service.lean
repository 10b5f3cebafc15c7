import Neurobro.Coop.Process
import Neurobro.OwnerControls.State

/-! The operations of the owner's registry. Telegram is awaited, so other operations may
run between any two of its answers; what stands between them is one segment. -/
namespace Neurobro.OwnerControls

open Coop
open Agent (Err Time MessageRef refKey)
open Jobs (ToolContext)

inductive Call where
  | getMessage (ref : MessageRef)
  | resolveSource (selector : String)
  | resolveForwardSource (m : Observation)
  | verifyPeer (peer : ResolvedOwnerPeer)

@[reducible] def Call.Reply : Call → Type
  | .getMessage _ => Except Err (Option Observation)
  | .resolveSource _ | .verifyPeer _ => Except Err ResolvedOwnerPeer
  | .resolveForwardSource _ => Except Err (Option ResolvedOwnerPeer)

inductive Shock where
  | around (around : Surroundings)
  | clock (now : Time)

def shock : Shock → State → State
  | .around around,s => { s with around }
  | .clock now,s => { s with now }

@[reducible] def registry (o : Options) : Signature where
  State := State
  Err := Err
  Cmd := Cmd
  Result := Cmd.Result
  exec := exec o
  Call := Call
  Reply := Call.Reply
  Shock := Shock
  shock := shock
  restart := id

abbrev M (o : Options) (α : Type) := Async (registry o) α

/-! ## Readings of the programs -/

section readings

variable (o : Options) (s : State)

/-- The message just read is the one observed, still the owner's own. -/
def State.readBack (m : Observation) (found : Option Observation) : Except Err Observation :=
  match found with
  | none => .error (.authority "Owner utterance changed or is unavailable")
  | some fresh =>
    if sameRef fresh.ref m.ref && s.directOwner o fresh && ownerVersion o.host fresh = ownerVersion o.host m then
      .ok { fresh with contextRefs := some (m.contextRefs.getD []) }
    else .error (.authority "Owner utterance changed or is unavailable")

inductive Recorded where
  | new
  | same
  | edited

def State.recorded (e : OwnerSourceEvidence) : Except Err Recorded :=
  match s.sources.get (refKey e.ref) with
  | none => .ok .new
  | some previous =>
    if previous.versionHash ≠ e.versionHash then .ok .edited
    else if previous.revokedAt.isSome then .error (.authority "Revoked owner instruction cannot be replayed")
    else .ok .same

/-- A deletion of a recorded message, as far as its author can be told. -/
def State.deletes (m : Observation) : Bool :=
  (s.sources.get (refKey m.ref)).isSome && m.ref.accountId = o.accountId && !m.forwarded.getD false &&
    !m.viaBot.getD false && m.authorId.all (· = o.ownerId)

def State.instructs (m : Observation) : Bool :=
  s.directOwner o m && (m.ref.peerId = o.controlPeerId || m.addressed o.host)

/-- Whether what was accepted before is still in force. -/
def State.upheld (known : OwnerEventResult) (e : OwnerSourceEvidence) (proposal : OwnerScopeProposal) : Bool :=
  match proposal.subject with
  | .sources _ _ => (s.policiesList o).any fun policy =>
      policy.taskId = proposal.context.taskId && sameRef policy.ownerSource.ref e.ref && s.policyActive policy
  | .outreach _ => (s.activeReceipts o proposal.context.taskId).any fun receipt =>
      some receipt.id = known.receipt.map OwnerApprovalReceipt.id

def State.recall (known : OwnerEventResult) (e : OwnerSourceEvidence) : OwnerEventResult :=
  if known.disposition = .accepted && known.proposal.any (fun p => !s.upheld o known e p) then
    ambiguous "Это подтверждение было учтено раньше; текущее разрешение уже не действует. Повторное разрешение не создано."
  else known

/-- Tasks whose authority an owner message gave and lost. -/
def State.affectedTaskIds (ref : MessageRef) : List String :=
  (((s.policiesList o).filter fun p => p.state = .revoked && sameRef p.ownerSource.ref ref).map MonitorPolicy.taskId ++
    ((s.receiptsList o).filter fun r => r.revokedAt.isSome && sameRef r.ownerSource.ref ref).map
      fun r => r.context.taskId).eraseDups

/-- Pending proposals that a decision may mean; `none` when it names none. -/
def State.candidates (m : Observation) (proposalId : Option String) : Option (List OwnerScopeProposal) :=
  let pending := (s.proposalsList o).filter fun p => p.state = .pending && p.expiresAt > s.now
  match proposalId with
  | some id => some (pending.filter fun p =>
      o.host.uuid p.id = id || id.toList.isPrefixOf (o.host.uuid p.id).toList)
  | none => m.replyTo.map fun ref => pending.filter fun p => p.cardRef.any (sameRef · ref)

/-- Native dates have the precision of a second. -/
def beforeCreation (m : Observation) (proposal : OwnerScopeProposal) : Bool :=
  (m.issuedAt o.host).any (· < proposal.createdAt / 1000 * 1000)

/-- Message numbers of one room order what was sent within a second. -/
def notAfter (m card : Observation) : Bool :=
  m.editedAt.all (· = "") && m.ref.peerId = card.ref.peerId &&
    (Agent.numeral? m.ref.messageId).any fun mine => (Agent.numeral? card.ref.messageId).any (mine ≤ ·)

/-- The card, as read back, was there before the owner's answer. -/
def answersCard (m : Observation) (card : MessageRef) (found : Observation) : Bool :=
  sameRef found.ref card && (o.host.parseDate found.sentAt).any fun sentAt =>
    !(m.issuedAt o.host).any (· < sentAt) && !notAfter m found

def State.standing (m : Observation) (e : OwnerSourceEvidence) (id : Name) : Except Err Bool := do
  let current ← s.proposal id
  .ok (s.confirmable o current m e)

def sourcePlan (e : OwnerSourceEvidence) (peers : List ResolvedOwnerPeer) (kind : SourceCommand) : SourcePlan where
  id := o.host.sha256 (refKey e.ref ++ ":" ++ e.versionHash)
  ownerSource := e
  peers := uniquePeers peers
  kind := if kind = .observe then .monitor else .read

/-- The plan belongs to the message a task came from, or to its context. -/
def concerns (intent : TaskIntent) (plan : SourcePlan) : Bool :=
  sameRef plan.ownerSource.ref intent.source || plan.ownerSource.contextRefs.any (intent.contextRefs.contains ·)

structure ApprovalQuery where
  context : ToolContext
  receiptId : Name
  objectId : String
  batchRevision : Int
  manifestHash : String
  selectedIds : List String

def OwnerApprovalReceipt.answers (q : ApprovalQuery) (receipt : OwnerApprovalReceipt) : Bool :=
  receipt.batch.objectId = q.objectId && receipt.batch.batchRevision = q.batchRevision &&
    receipt.batch.manifestHash = q.manifestHash && receipt.selectedRecipientIds.length = q.selectedIds.length &&
    receipt.selectedRecipientIds.all (q.selectedIds.contains ·)

def State.approvalFor (q : ApprovalQuery) : Except Err OwnerApprovalReceipt :=
  let refused : Except Err OwnerApprovalReceipt :=
    .error (.authority "Outreach batch has no matching fresh owner authorization")
  match (s.activeReceipts o q.context.taskId).find? fun receipt => receipt.id = q.receiptId with
  | none => refused
  | some receipt => if receipt.answers q then .ok receipt else refused

def State.genuine (receipt : OwnerApprovalReceipt) (found : Option Observation) : Bool :=
  found.any fun fresh => s.directOwner o fresh && ownerVersion o.host fresh = receipt.ownerSource.versionHash

def State.unchanged (q : ApprovalQuery) (receipt : OwnerApprovalReceipt) : Except Err OwnerApprovalReceipt :=
  if (s.activeReceipts o q.context.taskId).find? (fun current => current.id = q.receiptId) = some receipt then
    .ok receipt
  else .error (.authority "Owner outreach authorization was withdrawn or expired during readback")

end readings

section programs

variable {o : Options} {α : Type}

abbrev orThrow (r : Except Err α) : M o α := @Async.lift (registry o) α r

abbrev refuse (e : Err) : M o α := @Async.lift (registry o) α (.error e)

abbrev look (f : State → α) : M o α := @Async.look (registry o) α f

abbrev require (f : State → Except Err α) : M o α := @Async.check (registry o) α f

abbrev commit (cmd : Cmd) : M o cmd.Result := @Async.act (registry o) cmd

abbrev ask (call : Call) : M o call.Reply := @Async.call (registry o) call

def getMessage (ref : MessageRef) : M o (Option Observation) := do
  let answer ← ask (.getMessage ref)
  orThrow answer

def requireOwner (o : Options) (m : Observation) (s : State) : Except Err Unit :=
  if s.directOwner o m then .ok ()
  else .error (.authority "Authority requires a direct owner utterance, not an agent output or quoted source")

def freshOwner (m : Observation) : M o Observation := do
  require fun s => requireOwner o m s
  let found ← getMessage m.ref
  require fun s => s.readBack o m found

/-- Another version of a message withdraws what the earlier one gave. -/
def recordOwner (e : OwnerSourceEvidence) : M o Unit := do
  match ← require fun s => s.recorded e with
  | .same => pure ()
  | .new => commit (.putSource e)
  | .edited => do
    commit (.revokeOwnerSource e.ref "Owner instruction edited")
    commit (.putSource e)

/-- The result of a message is kept under its event. -/
def concluded (m : Observation) (result : OwnerEventResult) : M o OwnerEventResult := do
  commit (.putEvent (m.eventKey o.host) result)
  pure result

/-! ## Sources -/

def resolveSource (selector : String) : M o ResolvedOwnerPeer := do
  let answer ← ask (.resolveSource selector)
  let peer ← orThrow answer
  orThrow (assertPeer o peer)

def forwardedPeer (fresh : Observation) : M o (Option ResolvedOwnerPeer) :=
  match fresh.replyTo with
  | none => pure none
  | some ref => do
    match ← getMessage ref with
    | none => pure none
    | some material => do
      let answer ← ask (.resolveForwardSource material)
      orThrow answer

def applySource (m fresh : Observation) (e : OwnerSourceEvidence) (kind : SourceCommand)
    (peers : List ResolvedOwnerPeer) : M o OwnerEventResult :=
  if kind = .unsubscribe then do
    Async.each peers fun peer => commit (.revokeSource peer.peerId "Owner unsubscribed source" (some fresh))
    concluded m { disposition := .revoked }
  else do
    commit (.putPlan (sourcePlan o e peers kind) fresh)
    concluded m { disposition := .sourcePlan }

/-- Resolver waits do not extend stale or edited owner authority. -/
def confirmSource (m fresh : Observation) (e : OwnerSourceEvidence) (kind : SourceCommand)
    (peers : List ResolvedOwnerPeer) : M o OwnerEventResult :=
  if peers.isEmpty then pure (ambiguous "Выбери хотя бы один конкретный источник.")
  else do
    let _ ← Async.await (freshOwner m)
    let live ← look fun s => s.commandFresh o fresh && s.sourceActive e
    if live then applySource m fresh e kind peers
    else pure (ambiguous "Поручение устарело или отозвано во время проверки. Пришли свежее поручение.")

def instructSource (m fresh : Observation) (e : OwnerSourceEvidence) (kind : SourceCommand) (selectors : List String)
    (forwardedSource : Bool) : M o OwnerEventResult := do
  let peers ← Async.gather selectors resolveSource
  if forwardedSource then do
    match ← forwardedPeer fresh with
    | none => pure (ambiguous "Источник пересылки скрыт или не определён. Укажи точную ссылку или имя источника.")
    | some peer => do
      let peer ← orThrow (assertPeer o peer)
      confirmSource m fresh e kind (peers ++ [peer])
  else confirmSource m fresh e kind peers

/-! ## Decisions -/

inductive Decision where
  | approve (selectedIds : Option (List String))
  | reject

def verifySource (source : ResolvedOwnerPeer) (changed : String) : M o ResolvedOwnerPeer := do
  let answer ← ask (.verifyPeer source)
  let found ← orThrow answer
  let peer ← orThrow (assertPeer o found)
  if peer.peerId ≠ source.peerId then refuse (.authority changed) else pure peer

def approveSources (m : Observation) (e : OwnerSourceEvidence) (proposal : OwnerScopeProposal)
    (sources : List ResolvedOwnerPeer) : M o OwnerEventResult :=
  if !o.verifiesPeers then refuse (.authority "Exact source proposal resolver is unavailable")
  else do
    let _ ← Async.gather sources fun source => verifySource source "Proposed source is no longer exact"
    let _ ← Async.await (freshOwner m)
    let accepted ← commit (.acceptSources m e proposal.id)
    orThrow accepted

def approveBatch (m : Observation) (e : OwnerSourceEvidence) (proposal : OwnerScopeProposal) (batch : Batch)
    (selected : List String) : M o OwnerEventResult :=
  if selected.isEmpty || selected.any (fun id => !batch.recipients.any fun item => item.id = id) then
    pure (ambiguous "В выборе есть неизвестный получатель. Ответь на точную карточку отправки.")
  else do
    let accepted ← commit (.acceptOutreach m e proposal batch selected)
    orThrow accepted

def approve (m : Observation) (e : OwnerSourceEvidence) (proposal : OwnerScopeProposal)
    (selectedIds : Option (List String)) : M o OwnerEventResult :=
  match proposal.subject with
  | .sources sources _ =>
    if selectedIds.isSome then pure (ambiguous "Для части источников нужна новая карточка с точным списком.")
    else approveSources m e proposal sources
  | .outreach batch =>
    approveBatch m e proposal batch (selectedIds.getD (batch.recipients.map RecipientApprovalSpec.id))

/-- The proposal is read again after every wait; a rejection writes the copy it began with. -/
def decideCard (m : Observation) (e : OwnerSourceEvidence) (decision : Decision) (proposal : OwnerScopeProposal) :
    M o OwnerEventResult := do
  let standing ← require fun s => s.standing o m e proposal.id
  if !standing then pure State.overdue
  else do
    require fun s => s.validateProposalAuthority proposal
    match decision with
    | .reject => do
      commit (.rejectProposal proposal)
      pure { disposition := .rejected, proposal := some { proposal with state := .rejected } }
    | .approve selectedIds => approve m e proposal selectedIds

def confirmCard (m : Observation) (e : OwnerSourceEvidence) (decision : Decision) (proposal : OwnerScopeProposal) :
    M o OwnerEventResult :=
  match proposal.cardRef with
  | none => pure (ambiguous "Подтверждение должно относиться к уже опубликованной карточке предложения.")
  | some card =>
    if beforeCreation o m proposal then
      pure (ambiguous "Подтверждение должно относиться к уже опубликованной карточке предложения.")
    else do
      let found ← getMessage card
      if !found.any (answersCard o m card) then
        pure (ambiguous "Не удалось подтвердить, что карточка была опубликована до твоего ответа. Ответь на действующую карточку.")
      else do
        let _ ← Async.await (freshOwner m)
        decideCard m e decision proposal

def confirm (m : Observation) (e : OwnerSourceEvidence) (proposalId : Option String) (decision : Decision) :
    M o OwnerEventResult := do
  match ← look fun s => s.candidates o m proposalId with
  | none => pure (ambiguous "Ответь на карточку конкретного предложения.")
  | some candidates =>
    match candidates with
    | [proposal] => confirmCard m e decision proposal
    | _ => pure (ambiguous "Выбери одно действующее предложение и ответь на его карточку.")

def settleDecision (m fresh : Observation) (e : OwnerSourceEvidence) (proposalId : Option String)
    (decision : Decision) : M o OwnerEventResult := do
  let result ← Async.await (confirm fresh e proposalId decision)
  concluded m result

/-! ## Owner events -/

def instruct (m fresh : Observation) (e : OwnerSourceEvidence) (directive : DirectOwnerDirective) :
    M o OwnerEventResult :=
  match directive with
  | .source kind selectors forwardedSource => instructSource m fresh e kind selectors forwardedSource
  | .approve proposalId selectedIds => settleDecision m fresh e proposalId (.approve selectedIds)
  | .reject proposalId => settleDecision m fresh e proposalId .reject

/-- Anything but a complete command stays without effect until a card of its own is accepted. -/
def handle (m fresh : Observation) (e : OwnerSourceEvidence) : M o OwnerEventResult :=
  match fresh.directive o.host with
  | none => pure { disposition := .none }
  | some directive =>
    if fresh.quoted then pure { disposition := .none }
    else do
      let timely ← look fun s => s.commandFresh o fresh
      if timely then instruct m fresh e directive
      else pure (ambiguous "Это подтверждение устарело. Пришли свежее поручение.")

def forget (m : Observation) : M o OwnerEventResult := do
  let deletes ← look fun s => s.deletes o m
  if deletes then do
    commit (.revokeOwnerSource m.ref "Owner instruction deleted")
    pure { disposition := .revoked }
  else pure { disposition := .none }

/-- An event handled before is recalled, after its message has been read back. -/
def admitEvent (m : Observation) : M o OwnerEventResult := do
  let known ← look fun s => s.events.get (m.eventKey o.host)
  let fresh ← Async.await (freshOwner m)
  let e ← look fun s => s.evidence o fresh
  recordOwner e
  match known with
  | some known => look fun s => s.recall o known e
  | none => handle m fresh e

def processOwnerEvent (m : Observation) : M o OwnerEventResult :=
  if m.kind = .delete then forget m
  else do
    let mine ← look fun s => s.instructs o m
    if mine then admitEvent m else pure { disposition := .none }

/-- What lost its authority is read off the durable records, also after a crash. -/
def prepareOwnerEvent (m : Observation) : M o OwnerEventResult := do
  let result ← Async.await (processOwnerEvent m)
  look fun s => { result with affectedTaskIds := s.affectedTaskIds o m.ref }

/-! ## The host's side -/

def proposeSources (input : SourceScopeProposalInput) : M o OwnerScopeProposal := do
  require fun s => s.around.validateAuthority input.context
  if input.sources.isEmpty || input.sources.length > 32 then
    refuse (.error "Source proposal must contain 1..32 exact sources")
  else if !o.verifiesPeers then refuse (.authority "Exact source proposal resolver is unavailable")
  else do
    let sources ← Async.gather input.sources fun candidate => do
      let candidate ← orThrow (assertPeer o candidate)
      verifySource candidate "Source proposal changed its exact peer"
    let proposal ← commit (.proposeSources input sources)
    orThrow proposal

def claimPlan (intent : TaskIntent) (plan : SourcePlan) : M o Unit :=
  if plan.boundTaskId.isNone then commit (.bindTask plan intent.id) else pure ()

def bindPlan (intent : TaskIntent) (plan : SourcePlan) : M o Unit := do
  let bindable ← look fun s => s.bindable intent plan
  if bindable then do
    claimPlan intent plan
    Async.each plan.peers fun peer => commit (.bindPeer intent plan peer)
  else pure ()

def prepareAuthority (intent : TaskIntent) : M o OwnerAuthorityPreparation := do
  let plans ← look fun s => s.plansList o
  Async.each plans fun plan => if concerns intent plan then bindPlan intent plan else pure ()
  look fun s => s.preparation o intent

def getOutreachApproval (q : ApprovalQuery) : M o OwnerApprovalReceipt := do
  require fun s => s.around.validateAuthority q.context
  let receipt ← require fun s => s.approvalFor o q
  let found ← getMessage receipt.ownerSource.ref
  let genuine ← look fun s => s.genuine o receipt found
  if genuine then do
    require fun s => s.around.validateAuthority q.context
    require fun s => s.unchanged o q receipt
  else do
    commit (.revokeOwnerSource receipt.ownerSource.ref "Owner confirmation changed or was deleted")
    refuse (.authority "Owner outreach confirmation changed or was deleted")

end programs

inductive Op where
  | prepareOwnerEvent (m : Observation)
  | proposeSources (input : SourceScopeProposalInput)
  | proposeApproval (input : OutreachApprovalProposalInput)
  | registerCard (id : Name) (ref : MessageRef)
  | recordPublication (id : Name) (publication : OwnerProposalPublication)
  | revokeOwnerSource (ref : MessageRef) (reason : String)
  | revokeSource (peerId reason : String)
  | prepareAuthority (intent : TaskIntent)
  | getOutreachApproval (q : ApprovalQuery)

def discard {o : Options} {α : Type} (m : M o α) : M o Unit := do
  let _ ← m
  pure ()

def operation (o : Options) : Op → M o Unit
  | .prepareOwnerEvent m => discard (prepareOwnerEvent m)
  | .proposeSources input => discard (proposeSources input)
  | .proposeApproval input => discard (commit (.proposeApproval input))
  | .registerCard id ref => discard (commit (.registerCard id ref))
  | .recordPublication id publication => discard (commit (.recordPublication id publication))
  | .revokeOwnerSource ref reason => discard (commit (.revokeOwnerSource ref reason))
  | .revokeSource peerId reason => discard (commit (.revokeSource peerId reason none))
  | .prepareAuthority intent => discard (prepareAuthority intent)
  | .getOutreachApproval q => discard (getOutreachApproval q)

def body (o : Options) (op : Op) : Proc (registry o) := operation o op .done

/-- The registry over an empty store. -/
def boot (around : Surroundings) (now : Time) : State := { around, now }

def Reachable (o : Options) (w : World (registry o)) : Prop :=
  ∃ around now, World.Leads (body o) (.initial (boot around now)) w

end Neurobro.OwnerControls
