import Neurobro.History.Report
import Neurobro.Durable.Journal
import Neurobro.Delivery.Dispatch

/-! The delivery of a final report, one message at a time. One directory is kept for the
task and one for each message; whatever is there counts as tried, and only what is there
whole and verified lets the next message go. -/
namespace Neurobro.History

open Durable Script Journal Pilot Telegram Report

/-- What is written of one message after it was tried. -/
structure Receipt where
  taskId : String
  intentHash : String
  descriptorHash : String
  partIndex : Option Nat
  result : PilotResult
  deriving DecidableEq

/-- What an attempt leaves in its directory. -/
structure Base where
  pilot : Option Folder := none
  result : Option (File Receipt) := none

/-- The directory of a task. A report of one message is tried in it, others have a directory
for each part. -/
structure SlotDir where
  descriptor : Option (File (Intent × StoredDescriptor)) := none
  whole : Base := {}
  parts : Table Nat Base := ∅

inductive Name where
  | descriptor
  | pilot
  | result
  | part (index : Nat)
  deriving DecidableEq

def SlotDir.names (d : SlotDir) : List Name :=
  (if d.descriptor.isSome then [.descriptor] else []) ++ (if d.whole.pilot.isSome then [.pilot] else []) ++
    (if d.whole.result.isSome then [.result] else []) ++ d.parts.keys.map .part

inductive Storage where
  | absent
  | ready
  | unavailable
  deriving DecidableEq

inductive Delivery where
  | notAttempted
  | notInspected
  | unknown
  | verified
  | failedTerminal
  | partly
  deriving DecidableEq

structure DeliveryStatus where
  storage : Storage
  consumed : Bool := true
  delivery : Delivery
  descriptor : Option Descriptor := none
  result : Option PilotResult := none
  leaseJoined : Bool := false
  partsTotal : Option Nat := none
  verifiedParts : Option Nat := none
  nextPart : Option Nat := none

/-! Reading what is there. -/

section Reading
variable (h : Host) (i : Intent)

def randomIdValid (id : String) : Bool :=
  decimal id.toList && decide (id.length ≤ 19) && (Agent.numeral? id).any fun n => decide (n ≤ 9223372036854775807)

/-- The record is one of an attempt to send this message. -/
def recordFits (part : Part) (r : PilotRecord) : Bool :=
  decide (r.idempotencyKey = h.hash (Json.stringify h.render (.arr [.str i.chatId,.str "owner-prompt",
    numberJson i.primaryMessageId,.str "reply",.str part.textHash]))) && randomIdValid r.randomId &&
    decide (r.chatId = i.chatId) && decide (r.accountId = i.accountId) &&
    decide (r.replyToMessageId = some i.primaryMessageId) && decide (r.contentHash = part.textHash) &&
    decide (r.textBytes = part.text.utf8ByteSize) &&
    (if r.state = .verified then r.messageId.any messageIdValid else r.messageId.isNone && !r.detached)

def readRecord (part : Part) : Slot → Except String (Option PilotRecord)
  | .absent => .ok none
  | .torn => fail "STORAGE"
  | .whole r => if recordFits h i part r then .ok (some r) else fail "STORAGE"

/-- The last record, where all of them are those of one attempt. -/
def readPilot (part : Part) (f : Folder) : Except String (Option PilotRecord) := do
  let planned ← readRecord h i part f.planned
  let sending ← readRecord h i part f.sending
  let last ← readRecord h i part f.terminal
  let alike := fun r : PilotRecord => decide (planned.map (fun p => p.randomId) = some r.randomId)
  if planned.any (fun r => r.state ≠ .planned) || sending.any (fun r => !alike r || r.state ≠ .sending) ||
      last.any (fun r => !alike r || !r.state.terminal || r.state ≠ .failedTerminal && sending.isNone) then fail "STORAGE"
  else .ok last

def resultFits (r : PilotResult) : Bool :=
  match r.state with
  | .verified => decide (r.code = .verified)
  | .refused => decide (r.code = .inputRefused ∨ r.code = .stoppedBeforeSend ∨ r.code = .storeRefused)
  | .unknown => decide (r.code = .sendOrReadbackUnknown ∨ r.code = .persistenceUnknown)
  | .failedTerminal => decide (r.code = .stoppedBeforeSend ∨ r.code = .preDispatchRefused)

def multipart (d : Descriptor) : Bool := decide (d.schema ≠ .v1)

def receiptFor (d : Descriptor) (part : Part) (result : PilotResult) : Receipt where
  taskId := i.taskId
  intentHash := canonicalHash h.hash i.canonical
  descriptorHash := d.hash h.hash
  partIndex := if multipart d then some part.index else none
  result := result

/-- The result agrees with the last record. -/
def agrees (last : Option PilotState) (r : PilotResult) : Bool :=
  match r.state with
  | .verified => decide (last = some .verified)
  | .failedTerminal => decide (last = some .failedTerminal)
  | .refused => decide (last ≠ some .verified)
  | .unknown => true

def readResult (d : Descriptor) (part : Part) (last : Option PilotState) : Option (File Receipt) → Except String (Option PilotResult)
  | none => .ok none
  | some .torn => fail "STORAGE"
  | some (.whole receipt) =>
    if receipt = receiptFor h i d part receipt.result ∧ resultFits receipt.result ∧ agrees last receipt.result then
      .ok (some receipt.result)
    else fail "STORAGE"

structure SavedPart where
  delivery : Delivery
  result : Option PilotResult
  leaseJoined : Bool

def readPart (d : Descriptor) (part : Part) (b : Base) : Except String SavedPart := do
  let last ← (b.pilot.map (readPilot h i part)).getD (.ok none)
  let state := last.map fun r => r.state
  let result ← readResult h i d part state b.result
  let delivery :=
    if result.any fun r => r.state = .unknown then .unknown
    else if state = some .verified then .verified
    else if state = some .failedTerminal then .failedTerminal
    else .unknown
  .ok ⟨delivery,result,result.isSome⟩

/-- How far the parts of a report are. -/
structure Walked where
  verified : Nat := 0
  next : Option Nat := none
  delivery : Delivery := .partly
  result : Option PilotResult := none
  joined : Bool := true

/-- Some later part was tried. -/
def beyond (slot : SlotDir) (all : List Part) (part : Part) : Bool :=
  all.any fun later => decide (part.index < later.index) && (slot.parts.get later.index).isSome

def readParts (slot : SlotDir) (d : Descriptor) (all : List Part) : List Part → Walked → Except String Walked
  | [],w => .ok w
  | part :: rest,w =>
    match slot.parts.get part.index with
    | none =>
      if beyond slot all part then fail "STORAGE"
      else .ok { w with next := if w.verified + 1 = part.index then some part.index else none }
    | some b =>
      if w.verified + 1 ≠ part.index then fail "STORAGE"
      else do
        let saved ← readPart h i d part b
        let w' := { w with result := saved.result, joined := w.joined && saved.leaseJoined }
        if saved.delivery = .verified then readParts slot d all rest { w' with verified := w.verified + 1 }
        else if beyond slot all part then fail "STORAGE"
        else .ok { w' with delivery := saved.delivery }

def unavailable : DeliveryStatus := { storage := .unavailable, delivery := .notInspected }

def allowed (d : Descriptor) : List Name :=
  if multipart d then .descriptor :: (d.parts.getD []).map fun part => .part part.index else [.descriptor,.pilot,.result]

def inspectParts (slot : SlotDir) (d : Descriptor) : Except String DeliveryStatus := do
  let all := d.parts.getD []
  let w ← readParts h i slot d all all {}
  let complete := decide (w.verified = all.length)
  .ok {
    storage := .ready
    delivery := if complete then .verified else w.delivery
    descriptor := some d
    result := w.result
    leaseJoined := complete && w.joined
    partsTotal := some all.length
    verifiedParts := some w.verified
    nextPart := w.next }

def inspectWhole (slot : SlotDir) (d : Descriptor) : Except String DeliveryStatus := do
  let saved ← readPart h i d (part h.hash 1 .combined d.text) slot.whole
  .ok {
    storage := .ready
    delivery := saved.delivery
    descriptor := some d
    result := saved.result
    leaseJoined := saved.leaseJoined }

def openEnvelope (envelope : Intent × StoredDescriptor) : Except String Descriptor :=
  if envelope.1 = i then Descriptor.stored h.hash i envelope.2 else fail "STORAGE"

def inspectSlot (slot : SlotDir) : Except String DeliveryStatus :=
  if maxParts + 1 < slot.names.length then fail "STORAGE"
  else
    match slot.descriptor with
    | none => .ok unavailable
    | some .torn => fail "STORAGE"
    | some (.whole envelope) => do
      let d ← openEnvelope h i envelope
      if slot.names.any fun name => !(allowed d).contains name then fail "STORAGE"
      else if multipart d then inspectParts h i slot d
      else inspectWhole h i slot d

/-- What cannot be read is consumed all the same. -/
def readStandingHistoryTaskDelivery : Option SlotDir → DeliveryStatus
  | none => { storage := .absent, consumed := false, delivery := .notAttempted }
  | some slot =>
    match inspectSlot h i slot with
    | .ok status => status
    | .error _ => unavailable

end Reading

/-! The run. -/

structure FinalReport where
  taskRef : String
  sourceHead : String
  analysisHead : String
  body : String
  deriving DecidableEq

structure DeliveryInput where
  intent : Intent
  readiness : Readiness
  body : Option String := none
  finalReport : Option FinalReport := none

structure Root where
  nodeRef : String
  hash : String
  deriving DecidableEq

/-- The other stores of the task, its owner, the signal and the transport, each with any
behaviour. -/
structure TaskHost (ρ : Type) where
  aborted : ρ → Bool × ρ
  /-- The head of the control store, where the task is queued. -/
  queued : ρ → Except String String × ρ
  /-- The node the readiness names, once the stores are open and the owner is ready. -/
  root : Readiness → ρ → Except String Root × ρ
  /-- The heads of the pages, the analysis and the attempts are those of the readiness. -/
  heads : Readiness → ρ → Except String Unit × ρ
  openReply : ρ → Except String Unit × ρ
  closeLease : ρ → Except String Unit × ρ
  random : ρ → String × ρ
  sendOnce : PilotSend → ρ → Settled (Option Int) × ρ
  readExact : String → Int → ρ → Settled (Option PilotReadback) × ρ

/-- A message that was handed to the transport, and what was on the disk then. -/
structure Sent where
  part : Nat
  send : PilotSend
  slot : Option SlotDir

/-- The directory of one task, the store that is open in it, and everything else. `sends` is
not of the program: it tells what the transport was called with. -/
structure Desk (ρ : Type) where
  slot : Option SlotDir := none
  handle : StoreHandle := {}
  env : ρ
  sends : List Sent := []

/-- The message of this call. -/
structure Turn where
  intent : Intent
  readiness : Readiness
  head : String
  descriptor : Descriptor
  part : Part
  index : Nat
  total : Nat

def Turn.many (t : Turn) : Bool := decide (1 < t.total)

def Turn.base (t : Turn) (d : SlotDir) : Base := if t.many then (d.parts.get t.index).getD {} else d.whole

def Turn.setBase (t : Turn) (b : Base) (d : SlotDir) : SlotDir :=
  if t.many then { d with parts := d.parts.put t.index b } else { d with whole := b }

section Run
variable {ρ : Type} (h : Host) (e : TaskHost ρ)

def consult {α : Type} (f : ρ → Except String α × ρ) : Script (Desk ρ) α := do
  let s ← look id
  note fun s => { s with env := (f s.env).2 }
  lift (f s.env).1

def live (r : ρ) : Except String Unit × ρ := (if (e.aborted r).1 then fail "CANCELLED" else .ok (),(e.aborted r).2)

def andConsult {α β : Type} (f : ρ → Except String α × ρ) (g : α → ρ → Except String β × ρ) (r : ρ) : Except String β × ρ :=
  match (f r).1 with
  | .error no => (.error no,(f r).2)
  | .ok a => g a (f r).2

def freshHeads (head : String) (readiness : Readiness) : ρ → Except String Unit × ρ :=
  andConsult (live e) fun _ => andConsult e.queued fun now =>
    if now = head then andConsult (e.heads readiness) fun _ => live e else fun r => (fail "STALE",r)

def readStatus (i : Intent) : Script (Desk ρ) DeliveryStatus :=
  rescue (do
    fallible
    look fun s => readStandingHistoryTaskDelivery h i s.slot) fun _ => return unavailable

/-- Another part may follow. -/
def continues (status : DeliveryStatus) : Bool :=
  decide (status.storage = .ready) && decide (status.descriptor.map (fun d => d.schema) ≠ some .v1) && status.nextPart.isSome

def existingStatus (i : Intent) : Script (Desk ρ) (Option DeliveryStatus) := do
  let there ← look fun s => s.slot.isSome
  if there then do
    fallible
    let status ← readStatus h i
    guard (continues status = false) "STANDING_HISTORY_TASK_DELIVERY_CONSUMED"
    return some status
  else return none

/-- The final report belongs to the readiness. -/
def checkReport (v : DeliveryInput) : Except String Unit :=
  match v.finalReport with
  | none => .ok ()
  | some report =>
    if !validText report.body maxReportBytes || decide (maxReportBytes < report.body.utf8ByteSize) then fail "INPUT"
    else if report.taskRef ≠ v.intent.taskId ∨ report.sourceHead ≠ v.readiness.sourceHead ∨
        report.analysisHead ≠ v.readiness.expectedHead then fail "STALE"
    else if v.body.any fun body => body ≠ report.body then fail "INPUT"
    else .ok ()

def checkInput (v : DeliveryInput) : Except String Unit := do
  let _ ← readyCopy v.readiness
  if v.body.any fun body => !validText body maxReportBytes || decide (maxReportBytes < body.utf8ByteSize) then fail "INPUT"
  else checkReport v

def schemaOf (total : Nat) : Schema := if 2 < total then .v3 else if 1 < total then .v2 else .v1

/-- The report is fixed, and the message is the next one of it. -/
def turnOf (v : DeliveryInput) (head : String) (root : Root) (existing : Option DeliveryStatus) : Except String Turn :=
  match (v.finalReport.map FinalReport.body).or (v.body.or ((existing.bind fun s => s.descriptor).map fun d => d.body)) with
  | none => fail "REPORT-REQUIRED"
  | some body => do
    let prepared ← prepareText h.hash v.intent v.readiness body
    let total := prepared.parts.length
    let descriptor ← Descriptor.copy h.hash v.intent {
      schema := schemaOf total
      taskRef := v.intent.taskId
      sourceHead := v.readiness.sourceHead
      analysisHead := v.readiness.expectedHead
      rootRef := root.nodeRef
      rootHash := root.hash
      coverage := v.readiness.coverage
      gaps := v.readiness.gaps
      body := body
      text := prepared.text
      textHash := prepared.textHash
      parts := if 1 < total then some prepared.parts else none }
    if existing.any fun s => s.descriptor ≠ some descriptor then fail "CONSUMED"
    else
      let index := (existing.bind fun s => s.nextPart).getD 1
      match prepared.parts[index - 1]? with
      | none => .error "TypeError"
      | some part => .ok ⟨v.intent,v.readiness,head,descriptor,part,index,total⟩

def inSlot (f : SlotDir → Except String (Unit × SlotDir)) (s : Desk ρ) : Except String (Unit × Desk ρ) :=
  match s.slot with
  | none => .error "ENOENT"
  | some d => (f d).map fun made => ((),{ s with slot := some made.2 })

def mkdirSlot (s : Desk ρ) : Except String (Unit × Desk ρ) :=
  match s.slot with
  | some _ => fail "CONSUMED"
  | none => .ok ((),{ s with slot := some {} })

def openDescriptor (d : SlotDir) : Except String (Unit × SlotDir) :=
  if d.descriptor.isSome then .error "EEXIST" else .ok ((),{ d with descriptor := some .torn })

def fillDescriptor (t : Turn) (d : SlotDir) : Except String (Unit × SlotDir) :=
  .ok ((),{ d with descriptor := some (.whole (t.intent,t.descriptor.persisted)) })

def envelopeJson (t : Turn) : Json := .obj [("descriptor",t.descriptor.persisted.canonical),
  ("domain",.str "DecadansNeurobro/standing-history-task-delivery/v1"),("intent",t.intent.canonical),("kind",.str "descriptor")]

def stillSays (t : Turn) (d : SlotDir) : Bool :=
  match d.descriptor with
  | some (.whole envelope) => decide (envelope.1 = t.intent) &&
      decide ((Descriptor.stored h.hash t.intent envelope.2).toOption = some t.descriptor)
  | _ => false

/-- A new task gets its directory and its descriptor; in one that is there the descriptor
still says the same. -/
def claimSlot (t : Turn) (existing : Bool) : Script (Desk ρ) Unit :=
  if existing then do
    fallible
    let kept ← look fun s => s.slot.any (stillSays h t)
    guard (kept = false) "STANDING_HISTORY_TASK_DELIVERY_STORAGE"
  else do
    lasting mkdirSlot
    fallible
    guard (262144 < byteLength (envelopeJson t)) "STANDING_HISTORY_TASK_DELIVERY_STORAGE"
    lasting (inSlot openDescriptor)
    lasting (inSlot (fillDescriptor t))
    fallible

def mkdirPart (t : Turn) (d : SlotDir) : Except String (Unit × SlotDir) :=
  match d.parts.get t.index with
  | some _ => fail "CONSUMED"
  | none => .ok ((),{ d with parts := d.parts.put t.index {} })

def isNext (t : Turn) (status : DeliveryStatus) : Bool :=
  decide (status.storage = .ready) && decide (status.nextPart = some t.index) && decide (status.descriptor = some t.descriptor)

/-- The directory of a part is made once. -/
def claimPart (t : Turn) : Script (Desk ρ) Unit :=
  when (t.many = true) do
    let before ← readStatus h t.intent
    guard (isNext t before = false) "STANDING_HISTORY_TASK_DELIVERY_CONSUMED"
    fallible
    lasting (inSlot (mkdirPart t))
    fallible

/-! What the one attempt is run against. -/

def Turn.vault (t : Turn) (s : Desk ρ) : Vault := ⟨(s.slot.map t.base).bind Base.pilot,s.handle⟩

def Turn.setVault (t : Turn) (v : Vault) (s : Desk ρ) : Desk ρ :=
  { s with handle := v.handle, slot := s.slot.map fun d => t.setBase { t.base d with pilot := v.folder } d }

def recordReadback (t : Turn) (record : PilotRecord) : Script (Desk ρ) Unit := do
  fallible
  let v ← look t.vault
  guard ((v.folder.map fun f => f.slot record.state) ≠ some (.whole record)) "STANDING_HISTORY_TASK_DELIVERY_STORAGE"
  fallible

def guardedStore (t : Turn) (record : PilotRecord) (reserve : Bool) : Script (Desk ρ) Unit := do
  guard (recordFits h t.intent t.part record = false) "STANDING_HISTORY_TASK_DELIVERY_STORAGE"
  fallible
  zoom t.vault t.setVault (operation record reserve)
  fallible
  recordReadback t record

/-- All parts before this one are verified. -/
def prefixVerified (t : Turn) (slot : Option SlotDir) : Bool :=
  let status := readStandingHistoryTaskDelivery h t.intent slot
  !t.many || decide (status.storage = .ready) && status.verifiedParts.any (fun n => n + 1 = t.index) &&
    decide (status.descriptor = some t.descriptor)

/-- The transport is called only where the heads are still those of the readiness and the
parts before are verified. -/
def Turn.sendOnce (t : Turn) (send : PilotSend) (s : Desk ρ) : Settled (Option Int) × Desk ρ :=
  let (fresh,env) := freshHeads e t.head t.readiness s.env
  if fresh.isOk && prefixVerified h t s.slot then
    let (answer,env) := e.sendOnce send env
    (answer,{ s with env := env, sends := s.sends ++ [⟨t.index,send,s.slot⟩] })
  else (.rejected false (some .taskPreflight),{ s with env := env })

def outside {α : Type} (f : ρ → α × ρ) (s : Desk ρ) : α × Desk ρ := ((f s.env).1,{ s with env := (f s.env).2 })

def Turn.world (t : Turn) : World (Desk ρ) where
  random := outside e.random
  reserve record := guardedStore h t record true
  append record := guardedStore h t record false
  aborted := outside e.aborted
  killSwitchEngaged := outside fun r => (some (e.aborted r).1,(e.aborted r).2)
  sendOnce := t.sendOnce h e
  readExact chatId messageId := outside (e.readExact chatId messageId)

def Turn.input (t : Turn) : PilotReplyInput where
  approved := {
    chatId := t.intent.chatId
    accountId := t.intent.accountId
    replyToMessageId := some t.intent.primaryMessageId
    maximumTextBytes := 4096
    taskReplyPolicy := some standalone }
  reply := {
    chatId := t.intent.chatId
    replyToMessageId := some t.intent.primaryMessageId
    text := t.part.text }

def reply (t : Turn) : Script (Desk ρ) PilotResult :=
  zoom (fun s => (s,[])) (fun traced _ => traced.1) (runPilotReply h (t.world h e).ports (some t.input))

def openResult (t : Turn) (d : SlotDir) : Except String (Unit × SlotDir) :=
  if (t.base d).result.isSome then .error "EEXIST" else .ok ((),t.setBase { t.base d with result := some .torn } d)

def fillResult (t : Turn) (receipt : Receipt) (d : SlotDir) : Except String (Unit × SlotDir) :=
  .ok ((),t.setBase { t.base d with result := some (.whole receipt) } d)

def recordResult (t : Turn) (result : PilotResult) : Script (Desk ρ) Unit := do
  fallible
  lasting (inSlot (openResult t))
  lasting (inSlot (fillResult t (receiptFor h t.intent t.descriptor t.part result)))
  fallible

structure DeliveryRunResult where
  descriptor : Descriptor
  result : PilotResult
  partIndex : Nat
  partsTotal : Nat
  deliveryComplete : Bool

/-- From the claim of the directory on. -/
def attemptPart (t : Turn) (existing : Bool) : Script (Desk ρ) DeliveryRunResult := do
  claimSlot h t existing
  consult (freshHeads e t.head t.readiness)
  claimPart h t
  consult e.openReply
  note fun s => { s with handle := {} }
  let result ← reply h e t
  consult e.closeLease
  recordResult h t result
  let final ← readStatus h t.intent
  guard (final.storage ≠ .ready ∨ final.descriptor ≠ some t.descriptor) "STANDING_HISTORY_TASK_DELIVERY_STORAGE"
  return ⟨t.descriptor,result,t.index,t.total,decide (final.delivery = .verified)⟩

/-- An input that is not plain data is `none`. -/
def runStandingHistoryTaskDelivery (input : Option DeliveryInput) : Script (Desk ρ) DeliveryRunResult :=
  match input with
  | none => Script.throw "STANDING_HISTORY_TASK_DELIVERY_INPUT"
  | some v => do
    lift (checkInput v)
    consult (live e)
    fallible
    let existing ← existingStatus h v.intent
    guard (existing.isNone ∧ v.finalReport.isNone) "STANDING_HISTORY_TASK_DELIVERY_REPORT-REQUIRED"
    let head ← consult e.queued
    consult (live e)
    let root ← consult (e.root v.readiness)
    guard (root.hash ≠ v.readiness.expectedHead ∨ some root.nodeRef ≠ v.readiness.rootRef)
      "STANDING_HISTORY_TASK_DELIVERY_STALE"
    let t ← lift (turnOf h v head root existing)
    consult (freshHeads e head v.readiness)
    fallible
    attemptPart h e t existing.isSome

/-- One call after another; the open store is lost with its process. -/
def deliveryRun (r : ρ) (events : List (Option DeliveryInput × List Fate)) : Desk ρ :=
  play (runStandingHistoryTaskDelivery h e) (fun s => { s with handle := {} }) { env := r } events

end Run

end Neurobro.History
