import Neurobro.Api.Text
import Neurobro.Durable.Script

/-! One reply, sent once. The record of an attempt is written before the send, and the
attempt ends in one terminal record whatever the store, the transport, the switch that
stops it and the abort signal do. -/
namespace Neurobro.Pilot

open Durable Script Telegram

inductive PilotState where
  | planned
  | sending
  | verified
  | unknown
  | failedTerminal
  deriving DecidableEq

def PilotState.terminal : PilotState → Bool
  | .planned => false
  | .sending => false
  | _ => true

/-- What is the same in all records of one attempt. -/
structure PilotIdentity where
  idempotencyKey : String
  randomId : String
  chatId : String
  accountId : String
  replyToMessageId : Option Int
  contentHash : String
  textBytes : Nat
  deriving DecidableEq

/-- `detached` marks a verified reply that was seen without its anchor. -/
structure PilotRecord extends PilotIdentity where
  state : PilotState
  messageId : Option Int := none
  detached : Bool := false
  deriving DecidableEq

structure PilotReply where
  chatId : String
  replyToMessageId : Option Int
  text : String
  entities : Option (List Json) := none

structure PilotSend extends PilotReply where
  randomId : String

structure PilotReadback extends PilotReply where
  messageId : Int
  accountId : String
  taskReplyOriginMessageId : Option Int := none

structure Approved where
  chatId : String
  accountId : String
  replyToMessageId : Option Int
  maximumTextBytes : Int
  taskReplyPolicy : Option String := none

structure PilotReplyInput where
  approved : Approved
  reply : PilotReply

inductive TaskSendDiagnostic where
  | taskPreflight
  | taskAnchorRead
  | taskAnchorValidation
  | taskSendRpc
  | taskAckParse
  deriving DecidableEq

inductive DeliveryDiagnostic where
  | send
  | sendResult
  | readback
  | readbackShape
  | readbackMismatch
  | preDispatchRefused
  | persistSending
  | persistVerified
  | persistFailedTerminal
  | persistUnknown
  | task (diagnostic : TaskSendDiagnostic)
  deriving DecidableEq

inductive ResultState where
  | refused
  | verified
  | unknown
  | failedTerminal
  deriving DecidableEq

inductive ResultCode where
  | inputRefused
  | stoppedBeforeSend
  | preDispatchRefused
  | storeRefused
  | verified
  | sendOrReadbackUnknown
  | persistenceUnknown
  deriving DecidableEq

structure PilotResult where
  state : ResultState
  code : ResultCode
  deliveryDiagnostic : Option DeliveryDiagnostic := none
  deriving DecidableEq

/-- How a call of the transport ends: with a value, with an error, which may be the one
that promises that nothing was sent and may carry a mark, or after the abort. -/
inductive Settled (α : Type) where
  | resolved (value : α)
  | rejected (preDispatch : Bool) (tag : Option TaskSendDiagnostic)
  | aborted

/-- The digest of a text, how numbers are written, and the normal form of formatting. -/
structure Host where
  hash : String → String
  render : Rat → String
  copyEntities : String → List Json → Option (List Json)

/-- What a reply is run against. `stopped` is the abort signal or the switch, which counts
as engaged when it throws; a store that rejects throws. -/
structure Ports (σ : Type) where
  random : Script σ String
  reserve : PilotRecord → Script σ Unit
  append : PilotRecord → Script σ Unit
  stopped : Script σ Bool
  aborted : Script σ Bool
  sendOnce : PilotSend → Script σ (Settled (Option Int))
  readExact : String → Int → Script σ (Settled (Option PilotReadback))

/-! The checks of the input. -/

def standalone : String := "standalone-if-exact-missing"

/-- What was approved is well formed, and the reply keeps to it. -/
def acceptable (a : Approved) (reply : PilotReply) : Bool :=
  groupId a.chatId && userId a.accountId && a.replyToMessageId.all messageIdValid &&
    a.taskReplyPolicy.all (fun policy => policy = standalone && a.replyToMessageId.any messageIdValid) &&
    decide (1 ≤ a.maximumTextBytes ∧ a.maximumTextBytes ≤ 4096) && decide (reply.chatId = a.chatId) &&
    decide (reply.replyToMessageId = a.replyToMessageId) && !blank reply.text && !hasNul reply.text &&
    decide ((reply.text.utf8ByteSize : Int) ≤ a.maximumTextBytes)

def snapshotReply (h : Host) (reply : PilotReply) : Option PilotReply :=
  match reply.entities with
  | none => some reply
  | some entities => (h.copyEntities reply.text entities).map fun copied => { reply with entities := some copied }

def snapshotReadback (h : Host) (r : PilotReadback) : Option PilotReadback :=
  if r.taskReplyOriginMessageId.any fun origin => r.replyToMessageId.isSome || !messageIdValid origin then none
  else (snapshotReply h r.toPilotReply).map fun reply => { r with toPilotReply := reply }

def numberJson (n : Int) : Json := .num (.finite n)

def contentHash (h : Host) (reply : PilotReply) : String :=
  match reply.entities with
  | none => h.hash reply.text
  | some entities => h.hash (Json.stringify h.render
      (.arr [.str "DecadansNeurobro/pilot-formatted-text/v1",.str reply.text,.arr entities]))

def identityOf (h : Host) (a : Approved) (reply : PilotReply) (randomId : String) : PilotIdentity where
  idempotencyKey := h.hash (Json.stringify h.render (.arr [.str a.chatId,
    .str (if a.replyToMessageId = none then "owner-greeting" else "owner-prompt"),
    (a.replyToMessageId.map numberJson).getD .null,
    .str (if a.replyToMessageId = none then "message" else "reply"),.str (contentHash h reply)]))
  randomId := randomId
  chatId := a.chatId
  accountId := a.accountId
  replyToMessageId := a.replyToMessageId
  contentHash := contentHash h reply
  textBytes := reply.text.utf8ByteSize

def PilotIdentity.record (base : PilotIdentity) (state : PilotState) : PilotRecord := { base with state := state }

def PilotIdentity.verified (base : PilotIdentity) (messageId : Int) (detached : Bool) : PilotRecord :=
  { base with state := .verified, messageId := some messageId, detached := detached }

/-! What was read back. -/

/-- The reply stands alone because its anchor is gone, as the policy allows. -/
def detachedBy (a : Approved) (base : PilotIdentity) (r : PilotReadback) : Bool :=
  decide (a.taskReplyPolicy = some standalone) && decide (r.replyToMessageId = none) &&
    decide (r.taskReplyOriginMessageId.isSome ∧ r.taskReplyOriginMessageId = base.replyToMessageId)

def exactAnchor (base : PilotIdentity) (r : PilotReadback) : Bool :=
  decide (r.replyToMessageId = base.replyToMessageId) && decide (r.taskReplyOriginMessageId = none)

def formatting (h : Host) (entities : Option (List Json)) : Option String :=
  entities.map fun es => Json.stringify h.render (.arr es)

/-- What was read back is what was planned. -/
def matched (h : Host) (a : Approved) (base : PilotIdentity) (reply : PilotReply) (sentId : Int) (r : PilotReadback) : Bool :=
  decide (r.messageId = sentId) && decide (r.chatId = base.chatId) && decide (r.accountId = base.accountId) &&
    (exactAnchor base r || detachedBy a base r) && decide (r.text = reply.text) &&
    decide (formatting h r.entities = formatting h reply.entities)

/-! The run. -/

section Run
variable {σ : Type} (h : Host) (ports : Ports σ)

/-- Whether the store took the record. -/
def persist (record : PilotRecord) : Script σ Bool :=
  rescue (do
    ports.append record
    return true) fun _ => return false

/-- The attempt ends before the transport was called. -/
def failBefore (base : PilotIdentity) : Script σ PilotResult := do
  let kept ← persist ports (base.record .failedTerminal)
  if kept then return ⟨.failedTerminal,.stoppedBeforeSend,none⟩
  else return ⟨.unknown,.persistenceUnknown,some .persistFailedTerminal⟩

/-- The transport promises that nothing was sent. -/
def failRefused (base : PilotIdentity) : Script σ PilotResult := do
  let kept ← persist ports (base.record .failedTerminal)
  if kept then return ⟨.failedTerminal,.preDispatchRefused,some .preDispatchRefused⟩
  else return ⟨.unknown,.persistenceUnknown,some .persistFailedTerminal⟩

/-- What became of the send is not known. -/
def endUnknown (base : PilotIdentity) (diagnostic : DeliveryDiagnostic) : Script σ PilotResult := do
  let kept ← persist ports (base.record .unknown)
  if kept then return ⟨.unknown,.sendOrReadbackUnknown,some diagnostic⟩
  else return ⟨.unknown,.persistenceUnknown,some .persistUnknown⟩

def endVerified (base : PilotIdentity) (sentId : Int) (detached : Bool) : Script σ PilotResult := do
  let kept ← persist ports (base.verified sentId detached)
  if kept then return ⟨.verified,.verified,none⟩
  else return ⟨.unknown,.persistenceUnknown,some .persistVerified⟩

/-- The signal is looked at when the call is asked for and again when it is made; an abort
during the call is an answer of the transport here. -/
def untilAborted {α : Type} (operation : Script σ (Settled α)) : Script σ (Settled α) := do
  let first ← ports.aborted
  if first then return .aborted
  else do
    let second ← ports.aborted
    if second then return .aborted else operation

def sendUnlessStopped (send : PilotSend) : Script σ (Settled (Option Int)) := do
  let stopped ← ports.stopped
  if stopped then return .rejected false none else ports.sendOnce send

/-- What was read back decides. -/
def judge (a : Approved) (base : PilotIdentity) (reply : PilotReply) (sentId : Int) (raw : Option PilotReadback) :
    Script σ PilotResult :=
  match raw.bind (snapshotReadback h) with
  | none => endUnknown ports base .readbackShape
  | some r =>
    if matched h a base reply sentId r then endVerified ports base sentId (detachedBy a base r)
    else endUnknown ports base .readbackMismatch

def readBack (a : Approved) (base : PilotIdentity) (reply : PilotReply) (sentId : Int) : Script σ PilotResult := do
  let received ← untilAborted ports (ports.readExact base.chatId sentId)
  match received with
  | .resolved raw => judge h ports a base reply sentId raw
  | .rejected _ _ => endUnknown ports base .readback
  | .aborted => endUnknown ports base .readback

/-- The one send, and what follows from its outcome. -/
def dispatch (a : Approved) (base : PilotIdentity) (reply : PilotReply) : Script σ PilotResult := do
  let sent ← untilAborted ports (sendUnlessStopped ports { reply with randomId := base.randomId })
  match sent with
  | .aborted => endUnknown ports base .send
  | .rejected preDispatch tag =>
    if preDispatch then failRefused ports base
    else endUnknown ports base ((tag.map .task).getD .send)
  | .resolved none => endUnknown ports base .sendResult
  | .resolved (some sentId) =>
    if messageIdValid sentId then readBack h ports a base reply sentId else endUnknown ports base .sendResult

/-- Everything from the first record on. -/
def attemptReply (a : Approved) (base : PilotIdentity) (reply : PilotReply) : Script σ PilotResult := do
  let first ← ports.stopped
  if first then failBefore ports base
  else do
    let kept ← persist ports (base.record .sending)
    if kept then do
      let second ← ports.stopped
      if second then failBefore ports base else dispatch h ports a base reply
    else return ⟨.unknown,.persistenceUnknown,some .persistSending⟩

/-- One response and no retries. An input that is not plain data is `none`. -/
def runPilotReply (input : Option PilotReplyInput) : Script σ PilotResult :=
  match input.bind fun i => (snapshotReply h i.reply).map fun reply => (i.approved,reply) with
  | none => return ⟨.refused,.inputRefused,none⟩
  | some (a,reply) =>
    if acceptable a reply then do
      let stopped ← ports.stopped
      if stopped then return ⟨.refused,.stoppedBeforeSend,none⟩
      else do
        let randomId ← ports.random
        let base := identityOf h a reply randomId
        let reserved ← rescue (do
          ports.reserve (base.record .planned)
          return true) fun _ => return false
        if reserved then attemptReply h ports a base reply else return ⟨.refused,.storeRefused,none⟩
    else return ⟨.refused,.inputRefused,none⟩

end Run

end Neurobro.Pilot
