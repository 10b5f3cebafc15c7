import Neurobro.Coop.Process
import Neurobro.History.Report
import Neurobro.Delivery.Outbox

/-! The one attempt to recover a delivery whose outcome is unknown: a directory of its own, made once,
and three files written around one send of the original message. -/
namespace Neurobro.History.Recovery

open Coop Pilot Report

/-- The operation that is recovered. -/
structure Binding where
  taskRef : String
  intentHash : String
  descriptorHash : String
  partIndex : Int
  originalRecordsHash : String
  idempotencyKey : String
  randomId : String
  accountId : String
  chatId : String
  replyToMessageId : Int
  contentHash : String
  textBytes : Int
  deriving DecidableEq

structure Authorization where
  schema : String
  binding : Binding
  ownerReceiptHash : String
  deriving DecidableEq

/-- The digest of a text. -/
structure Host where
  hash : String → String

def refused : String := "STANDING_HISTORY_DELIVERY_RECOVERY_REFUSED"

def fail : Except String α := .error refused

/-- What is not of the shape of an authorization comes as none. -/
def snapshotAuthorization (value : Option Authorization) (binding : Binding) : Except String Authorization :=
  match value with
  | none => fail
  | some v =>
    if v.schema ≠ "standing-history-delivery-recovery-authorization-v1" ∨ digest v.ownerReceiptHash = false ∨ v.binding ≠ binding then fail
    else .ok v

/-! The files, with their keys in order. -/

def domain : String := "DecadansNeurobro/standing-history-task-delivery-recovery/v1"

def canonical (value : Json) : String := Json.stringify numberText value

def Binding.json (b : Binding) : Json := .obj [("accountId",.str b.accountId),("chatId",.str b.chatId),
  ("contentHash",.str b.contentHash),("descriptorHash",.str b.descriptorHash),("idempotencyKey",.str b.idempotencyKey),
  ("intentHash",.str b.intentHash),("originalRecordsHash",.str b.originalRecordsHash),("partIndex",int b.partIndex),
  ("randomId",.str b.randomId),("replyToMessageId",int b.replyToMessageId),("taskRef",.str b.taskRef),("textBytes",int b.textBytes)]

def intentJson (binding : Binding) (ownerReceiptHash : Json) (policy : Option Json) : Json :=
  .obj ([("binding",binding.json),("domain",.str domain),("kind",.str "intent"),("ownerReceiptHash",ownerReceiptHash)] ++
    optional "taskReplyPolicy" id policy)

def dispatchJson (intentHash : String) : Json :=
  .obj [("domain",.str domain),("intentHash",.str intentHash),("kind",.str "dispatch")]

def resultJson (intentHash : String) (state : Json) (messageId : Option Json) (standalone : Bool) : Json :=
  .obj ([("domain",.str domain),("intentHash",.str intentHash),("kind",.str "result"),("leaseJoined",.bool true)] ++
    optional "messageId" id messageId ++ [("state",state)] ++
    optional "wireReplyToMessageId" id (if standalone then some .null else none))

def standaloneIfExactMissing : String := "standalone-if-exact-missing"

structure Files where
  intent : Option Json := none
  dispatch : Option Json := none
  result : Option Json := none

inductive Name where
  | intent
  | dispatch
  | result
  deriving DecidableEq

def Files.get (d : Files) : Name → Option Json
  | .intent => d.intent
  | .dispatch => d.dispatch
  | .result => d.result

def Files.set (d : Files) (name : Name) (value : Json) : Files :=
  match name with
  | .intent => { d with intent := some value }
  | .dispatch => { d with dispatch := some value }
  | .result => { d with result := some value }

/-- The size of a text once it is encrypted. -/
def sealedSize (bytes : Nat) : Nat := 201 + 4 * ((bytes + 2) / 3)

/-- A file is read up to a size. -/
def opened : Option Json → Except String Json
  | none => fail
  | some value => if 16384 < sealedSize (canonical value).utf8ByteSize then fail else .ok value

def plainObject : Json → Except String Json
  | .obj fields => .ok (.obj fields)
  | _ => fail

/-- A message number the wire can carry. -/
def messageId? : Option Json → Option Int
  | some (.num (.finite q)) => if q.den = 1 ∧ 1 ≤ q.num ∧ q.num ≤ 2147483647 then some q.num else none
  | _ => none

def isText (value : Option Json) (text : String) : Bool :=
  match value with
  | some (.str s) => decide (s = text)
  | _ => false

structure Receipt where
  messageId : Int
  standalone : Bool
  deriving DecidableEq

section Reading
variable (h : Host) (binding : Binding)

/-- The digest of the intent and whether it has the policy, where it is one for this operation. -/
def readIntent (intent : Json) : Except String (String × Bool) := do
  let policy := intent.field? "taskReplyPolicy"
  let owner := intent.field? "ownerReceiptHash"
  match owner with
  | some (.str receipt) =>
    if (policy.isSome ∧ isText policy standaloneIfExactMissing = false) ∨ digest receipt = false ∨
        canonical intent ≠ canonical (intentJson binding (.str receipt) policy) then fail
    else .ok (h.hash (canonical intent),policy.isSome)
  | _ => fail

def readResult (intentHash : String) (policy : Bool) (result : Json) : Except String (Option Receipt) :=
  let standalone := (result.field? "wireReplyToMessageId").isSome
  let state := result.field? "state"
  let messageId := messageId? (result.field? "messageId")
  let verified := isText state "verified"
  match state with
  | none => fail
  | some state =>
    if (verified = false ∧ isText (some state) "unknown" = false) ∨
        Json.strictEq (result.field? "leaseJoined") (some (.bool true)) = false ∨ (verified = true ∧ messageId = none) ∨
        (standalone = true ∧ (verified = false ∨ Json.strictEq (result.field? "wireReplyToMessageId") (some .null) = false ∨ policy = false)) ∨
        canonical result ≠ canonical (resultJson intentHash state (if verified then result.field? "messageId" else none) standalone) then fail
    else .ok (if verified then messageId.map fun n => ⟨n,standalone⟩ else none)

def readStandingHistoryDeliveryRecovery (d : Files) : Except String (Option Receipt) :=
  if d.intent.isNone then
    if d.dispatch.isSome ∨ d.result.isSome then fail else .ok none
  else do
    let intent ← plainObject (← opened d.intent)
    let (intentHash,policy) ← readIntent h binding intent
    if d.dispatch.isNone then
      if d.result.isSome then fail else .ok none
    else do
      let dispatch ← opened d.dispatch
      if canonical dispatch ≠ canonical (dispatchJson intentHash) then fail
      else if d.result.isNone then .ok none
      else do
        let result ← plainObject (← opened d.result)
        readResult intentHash policy result

end Reading

/-! The run. -/

structure SendRequest where
  chatId : String
  replyToMessageId : Int
  text : String
  randomId : String
  deriving DecidableEq

structure State where
  directory : Option Files := none

/-- What is done at once, between two awaits. -/
inductive Cmd where
  | mkdir
  | write (name : Name) (value : Json)
  | finish (result : PilotResult)

abbrev Cmd.Result : Cmd → Type
  | .mkdir => Bool
  | .write _ _ => Bool
  | .finish _ => Unit

def exec : (cmd : Cmd) → State → cmd.Result × State
  | .mkdir,s =>
    match s.directory with
    | none => (true,{ s with directory := some {} })
    | some _ => (false,s)
  | .write name value,s =>
    match s.directory with
    | none => (false,s)
    | some d => if (d.get name).isSome then (false,s) else (true,{ s with directory := some (d.set name value) })
  | .finish _,s => ((),s)

/-- What is awaited from outside: a step of the host, the transport, the abort signal. -/
inductive Call where
  | host
  | aborted
  | sendOnce (request : SendRequest)
  | readExact (chatId : String) (messageId : Int)

abbrev Call.Reply : Call → Type
  | .host => Except String Unit
  | .aborted => Bool
  | .sendOnce _ => Except String Json
  | .readExact _ _ => Except String Json

/-- A process that ends leaves the directory. -/
def recovery : Signature where
  State := State
  Err := String
  Cmd := Cmd
  Result := Cmd.Result
  exec := exec
  Call := Call
  Reply := Call.Reply
  Shock := Empty
  shock x _ := nomatch x
  restart s := s

abbrev Recovering := Async recovery

abbrev commit (cmd : Cmd) : Recovering cmd.Result := Async.act (S := recovery) cmd

abbrev ask (q : Call) : Recovering q.Reply := Async.call (S := recovery) q

abbrev view (f : State → α) : Recovering α := Async.look (S := recovery) f

abbrev lift (r : Except String α) : Recovering α := Async.lift (S := recovery) r

structure Input where
  authorization : Option Authorization
  text : String
  taskReplyPolicy : Option String
  deriving DecidableEq

section Running
variable (h : Host) (binding : Binding)

/-- A step of the host that may fail. -/
def host : Recovering Unit := do
  let done ← ask .host
  lift done

/-- The signal is looked at. -/
def live : Recovering Unit := do
  let aborted ← ask .aborted
  if aborted = true then lift fail else pure ()

def read (name : Name) : Recovering Json := do
  host
  let file ← view fun s => s.directory.bind fun d => d.get name
  let value ← lift (opened file)
  host
  return value

def write (name : Name) (value : Json) : Recovering Unit := do
  host
  let made ← commit (.write name value)
  if made = false then lift fail
  else do
    host
    let back ← read name
    if canonical back ≠ canonical value then lift fail else pure ()

/-- The keys of an object, in order and in one text. -/
def keyText (value : Json) : String :=
  joined "," (value.keys.insertionSort fun a b => unitsLe (utf16Units a) (utf16Units b))

/-- What a message that was sent has to look like when it is read back. -/
def expected (text : String) (messageId : Int) (missingAnchor : Bool) : Json :=
  .obj ([("messageId",int messageId),("chatId",.str binding.chatId),("accountId",.str binding.accountId),
    ("replyToMessageId",if missingAnchor then .null else int binding.replyToMessageId),("text",.str text)] ++
    optional "taskReplyOriginMessageId" int (if missingAnchor then some binding.replyToMessageId else none))

/-- Whether it was seen without its anchor, where that is allowed. -/
def missingAnchor (policy : Option String) (received : Json) : Bool :=
  decide (policy = some standaloneIfExactMissing) && Json.strictEq (received.field? "replyToMessageId") (some .null) &&
    Json.strictEq (received.field? "taskReplyOriginMessageId") (some (int binding.replyToMessageId))

def readbackFits (text : String) (messageId : Int) (missingAnchor : Bool) (received : Json) : Bool :=
  let expected := expected binding text messageId missingAnchor
  decide (keyText received = keyText expected) &&
    expected.keys.all fun key => Json.strictEq (received.field? key) (expected.field? key)

/-- The one send, and its message read back. -/
def exchange (text : String) (policy : Option String) : Recovering Receipt := do
  host
  live
  let reply ← ask (.sendOnce ⟨binding.chatId,binding.replyToMessageId,text,binding.randomId⟩)
  let sent ← lift (reply.bind plainObject)
  match messageId? (sent.field? "messageId") with
  | none => lift fail
  | some messageId => do
    let reply ← ask (.readExact binding.chatId messageId)
    let received ← lift (reply.bind plainObject)
    let standalone := missingAnchor binding policy received
    if readbackFits binding text messageId standalone received = true then return ⟨messageId,standalone⟩ else lift fail

def resultOf (intentHash : String) : Option Receipt → Json
  | none => resultJson intentHash (.str "unknown") none false
  | some r => resultJson intentHash (.str "verified") (some (int r.messageId)) r.standalone

def pilotResult : Option Receipt → PilotResult
  | none => ⟨.unknown,.sendOrReadbackUnknown,none⟩
  | some _ => ⟨.verified,.verified,none⟩

def runStandingHistoryDeliveryRecovery (input : Input) : Recovering PilotResult := do
  let authorization ← lift (snapshotAuthorization input.authorization binding)
  if h.hash input.text ≠ binding.contentHash ∨ (input.text.utf8ByteSize : Int) ≠ binding.textBytes ∨
      (input.taskReplyPolicy.isSome ∧ input.taskReplyPolicy ≠ some standaloneIfExactMissing) then lift fail
  else do
    live
    host
    let made ← commit .mkdir
    if made = false then lift fail
    else do
      host
      let intent := intentJson binding (.str authorization.ownerReceiptHash) (input.taskReplyPolicy.map .str)
      write .intent intent
      live
      write .dispatch (dispatchJson (h.hash (canonical intent)))
      let outcome ← Async.settle (exchange binding input.text input.taskReplyPolicy)
      host
      host
      write .result (resultOf (h.hash (canonical intent)) outcome.toOption)
      commit (.finish (pilotResult outcome.toOption))
      return pilotResult outcome.toOption

inductive Op where
  | run (input : Input)

def body : Op → Proc recovery
  | .run input => (do
      let _ ← runStandingHistoryDeliveryRecovery h binding input
      pure () : Recovering Unit) .done

end Running

end Neurobro.History.Recovery
