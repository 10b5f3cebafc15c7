import Neurobro.History.Pages
import Neurobro.Api.Batch

/-! The reader of one chat: a batch of messages, newest first, is made into a page of public
rows with the sources they come from, and the traversal goes on below the last message that
was taken. -/
namespace Neurobro.History

open Telegram

/-- The keyed digest of a text and the signed identifier of a peer. -/
structure ReaderHost where
  digest : String → String
  getPeerId : Peer → String

/-- The binding, and how references are made: the shared ones name the account itself, and a
reader of durable texts has none of them. -/
structure Reader where
  accountId : String
  peerId : String
  durableText : Bool
  shared : Bool
  apart : ¬(durableText = true ∧ shared = true)

structure TaskRequest where
  fromDate : Int
  toDate : Int
  checkpoint : Option Checkpoint := none

section Reading
variable (h : ReaderHost) (r : Reader)

def samePeer (value : Option Peer) (expected : String) : Bool := value.any fun peer => h.getPeerId peer = expected

def label (kind raw : String) : String := kind ++ "_" ++ String.ofList ((h.digest (kind ++ ":" ++ raw)).toList.take 24)

def messageRef (id : Int) : String := label h "m" (numberText id)

def authorRef (authorId : String) : String :=
  if r.shared && decide (authorId = r.accountId) then "neurobro" else label h "a" authorId

/-! Names and forwards. -/

/-- A label is cut to so many bytes; one that is not well formed stops the page. -/
def forwardLabel (raw : Option Units) : Except String String :=
  match raw with
  | none => .ok ""
  | some units =>
    match text? units with
    | none => .error "protocol"
    | some text =>
      if 4096 < text.utf8ByteSize then .error "protocol"
      else
        let visible := Agent.trimChars (text.toList.map fun c => if steering c.toNat then ' ' else c)
        .ok (Agent.trim (String.ofList (takeBytes 128 visible)))

def forwardProvenance (header : Option ForwardHeader) : Except String (Option Forwarded) :=
  match header with
  | none => .ok none
  | some header => do
    if dateValid header.date then
      let fromName ← forwardLabel header.fromName
      let postAuthor ← forwardLabel header.postAuthor
      .ok (some ⟨header.date,if fromName ≠ "" then some fromName else if postAuthor ≠ "" then some postAuthor else none⟩)
    else .error "protocol"

/-- First and last name, or else the user name. -/
def rawName (user : Option RawUser) : Units :=
  let names := ([user.bind RawUser.firstName,user.bind RawUser.lastName].filterMap id).map fun value => value.take 128
  let full := (names.intersperse [32]).flatten
  if full ≠ [] then full
  else
    match user.bind RawUser.username with
    | some (u :: rest) => u :: rest
    | _ => unitsOf "Неизвестный участник"

/-- At most 128 code units, without steering characters. -/
def cutName (raw : Units) : Units := (trimUnits (raw.map fun u => if steering u.toNat then 32 else u)).take 128

/-- What is not a character is left out, the replacement character too. -/
def keptName (cut : Units) : String := String.ofList (((points cut).filterMap id).filter fun c => c ≠ Char.ofNat 0xFFFD)

def name (user : Option RawUser) (own : Bool) : String :=
  if own then "Нейробро"
  else if keptName (cutName (rawName user)) = "" then "Участник" else keptName (cutName (rawName user))

/-! One message. -/

def dated (v : RawMessage) : Option Int := if v.kind ≠ .empty ∧ dateValid v.date = true then some v.date else none

def textOk (message : Units) : Bool := (text? message).any fun text => textValid text 16384

def isUserPeer : Option Peer → Bool
  | some (.user _) => true
  | _ => false

/-- What an ordinary reader leaves out: everything but a plain text of a user. -/
def adorned (v : RawMessage) : Bool :=
  !isUserPeer v.fromId || v.post || v.fwdFrom.isSome || v.viaBot || v.grouped || v.markup || v.media

def leftOut (toDate : Int) (v : RawMessage) : Option Disposition :=
  match dated v with
  | none => some .unavailable
  | some date =>
    if toDate < date then some .outsidePeriod
    else if v.kind ≠ .message || !r.durableText && adorned v then some .nonText
    else if r.durableText && (trimUnits v.message).isEmpty then some .nonText
    else if !textOk v.message then some .invalidText
    else none

def senderId (v : RawMessage) : String :=
  match v.fromId.or (if r.durableText && v.post then v.peerId else none) with
  | some (.user id) => id
  | some peer => if r.durableText then h.getPeerId peer else ""
  | none => ""

def matching (users : List RawUser) (authorId : String) : List RawUser := users.filter fun user => user.id = authorId

def sender (users : List RawUser) (authorId : String) : Option RawUser :=
  match matching users authorId with
  | [user] => if user.known then some user else none
  | _ => none

/-- The author cannot be told. -/
def unsure (users : List RawUser) (v : RawMessage) (authorId : String) : Bool :=
  let own := decide (authorId = r.accountId)
  !(userId authorId || r.durableText && groupId authorId) || (!r.durableText || userId authorId) && v.out != own ||
    decide (1 < (matching users authorId).length) || !own && (sender users authorId).any RawUser.self

def replyTarget (v : RawMessage) : Option Int :=
  (v.replyTo.filter fun reply => reply.header && !reply.scheduled && messageIdValid reply.toMsgId &&
    decide (reply.toMsgId < v.id) && (reply.toPeerId.isNone || samePeer h reply.toPeerId r.peerId)).map ReplyHeader.toMsgId

def authorOf (user : Option RawUser) (own : Bool) : Author :=
  if own then .self
  else
    match user with
    | none => .unknown
    | some user => if user.deleted then .unknown else if user.bot then .bot else .user

def displayName (user : Option RawUser) (authorId : String) : String :=
  if authorId.toList.head? = some '-' then "Канал / группа" else name user (decide (authorId = r.accountId))

/-- A message that is left out, or its public row. -/
inductive Projected where
  | left (reason : Disposition)
  | row (authorId : String) (m : Message)

def rowFor (users : List RawUser) (v : RawMessage) (date : Int) (forwarded : Option Forwarded) : Message where
  ref := messageRef h v.id
  authorRef := authorRef h r (senderId h r v)
  author := authorOf (sender users (senderId h r v)) (decide (senderId h r v = r.accountId))
  displayName := displayName r (sender users (senderId h r v)) (senderId h r v)
  date := date
  editedAt := v.editDate.filter fun date => dateValid date
  replyRef := (replyTarget h r v).map fun id => messageRef h id
  replyUnavailable := v.replyTo.isSome && (replyTarget h r v).isNone
  text := (text? v.message).getD ""
  forwarded := forwarded

def forwardOf (v : RawMessage) : Except String (Option Forwarded) :=
  if r.durableText then forwardProvenance v.fwdFrom else .ok none

def project (users : List RawUser) (toDate : Int) (v : RawMessage) : Except String Projected :=
  match leftOut r toDate v with
  | some reason => .ok (.left reason)
  | none =>
    if unsure r users v (senderId h r v) then .ok (.left .unavailable)
    else do
      let forwarded ← forwardOf r v
      .ok (.row (senderId h r v) (rowFor h r users v v.date forwarded))

def sizeBytes (p : Projected) : Nat :=
  match p with
  | .left _ => 0
  | .row _ m => byteLength m.json

def sourceOf (v : RawMessage) (p : Projected) : Source :=
  match p with
  | .left reason => { messageId := v.id, date := dated v, disposition := reason }
  | .row authorId m => {
      messageId := v.id
      date := dated v
      disposition := .included
      messageRef := some m.ref
      authorId := some authorId
      replyToMessageId := replyTarget h r v }

/-! The page. -/

/-- What was taken so far. The messages are in the order they were read in. -/
structure Reading where
  position : Checkpoint
  messages : List Message := []
  usedBytes : Nat := 0
  excluded : Excluded := {}
  sources : List Source := []

def Reading.take (s : Reading) (v : RawMessage) (p : Projected) : Reading where
  position :=
    let below := { s.position with
      offsetId := v.id
      upperBoundMessageId := s.position.upperBoundMessageId.or (some v.id) }
    match dated v with
    | none => { below with undated := s.position.undated + 1 }
    | some date => { below with
        lastDate := date
        oldestDate := smaller s.position.oldestDate date
        newestDate := larger s.position.newestDate date }
  messages :=
    match p with
    | .left _ => s.messages
    | .row _ m => s.messages ++ [m]
  usedBytes := s.usedBytes + sizeBytes p
  excluded :=
    match p with
    | .left reason => s.excluded.count reason
    | .row _ _ => s.excluded
  sources := s.sources ++ [sourceOf h r v p]

/-- Newest first, down to the lower date or to what fits the page. -/
def readLoop (users : List RawUser) : List RawMessage → Reading → Except String (Reading × Status)
  | [],s => .ok (s,.more)
  | v :: rest,s =>
    if (dated v).any fun date => decide (date < s.position.fromDate) then .ok (s,.lowerBoundReached)
    else do
      let p ← project h r users s.position.toDate v
      if 60000 < s.usedBytes + sizeBytes p then .ok (s,.more)
      else readLoop users rest (s.take h r v p)

/-- Ids go down, dates do not go up and all are of the chat. -/
def orderly : List RawMessage → Int → Int → Bool
  | [],_,_ => true
  | v :: rest,previousId,previousDate =>
    decide (v.kind ≠ .other) && messageIdValid v.id && decide (v.id < previousId) &&
      (v.peerId.isNone && decide (v.kind = .empty) || samePeer h v.peerId r.peerId) &&
      (dated v).all (fun date => decide (date ≤ previousDate)) && orderly rest v.id ((dated v).getD previousDate)

def coverageOf (position : Checkpoint) (complete : Bool) : Coverage where
  oldestExaminedDate := position.oldestDate
  newestExaminedDate := position.newestDate
  traversalComplete := complete && decide (position.undated = 0) && !position.inexact
  undatedEntries := position.undated
  pages := position.pages

def pageOf (s : Reading) (status : Status) (complete : Bool) : Page where
  fromDate := s.position.fromDate
  toDate := s.position.toDate
  messages := s.messages.reverse
  cursor := none
  hasMore := decide (status = .more)
  status := status
  coverage := coverageOf s.position complete
  excluded := s.excluded

/-- The batch was read; a page that says more has gone further down. -/
def finishPage (before : Checkpoint) (batch : Batch) (s : Reading) (status : Status) : Except String TaskPage := do
  let page := pageOf s status (terminal status && !batch.inexact)
  require (¬(status = .more ∧ s.position.offsetId = before.offsetId)) "protocol"
  require (byteLength page.json ≤ 65536) "protocol"
  let next ← snapshotCheckpoint { s.position with status := status }
  return ⟨page,s.sources,before,next⟩

def readBatch (before : Checkpoint) (batch : Batch) : Except String TaskPage := do
  require (batch.messages.length ≤ 100 ∧ batch.users.length ≤ 200 ∧ batch.chats ≤ 100) "protocol"
  let start : Reading := { position := { before with
    pages := before.pages + 1
    inexact := before.inexact || batch.inexact } }
  require (orderly h r batch.messages (if before.offsetId = 0 then 2147483648 else before.offsetId) before.lastDate = true) "protocol"
  if batch.messages = [] then finishPage before batch start .emptyPage
  else do
    let (s,status) ← readLoop h r batch.users batch.messages start
    finishPage before batch s status

/-- The chat cannot be read any more. -/
def inaccessible (before : Checkpoint) : Except String TaskPage := do
  let next ← snapshotCheckpoint { before with status := .inaccessible }
  return ⟨pageOf { position := before } .inaccessible false,[],before,next⟩

def inaccessibleCodes : List String :=
  ["CHANNEL_PRIVATE","CHAT_ADMIN_REQUIRED","USER_BANNED_IN_CHANNEL","FROZEN_PARTICIPANT_MISSING"]

def firstCheckpoint (q : TaskRequest) : Checkpoint where
  accountId := r.accountId
  chatId := r.peerId
  fromDate := q.fromDate
  toDate := q.toDate
  offsetId := 0
  lastDate := q.toDate
  oldestDate := none
  newestDate := none
  undated := 0
  pages := 0
  inexact := false
  upperBoundMessageId := none
  status := .more

/-- What the messenger is asked for: nothing above this message, or nothing after the period. -/
structure GetHistory where
  offsetId : Int
  offsetDate : Int
  deriving DecidableEq

def askFor (before : Checkpoint) : GetHistory := ⟨before.offsetId,if before.offsetId = 0 then before.toDate + 1 else 0⟩

/-- The answer is a batch or the code of an error. -/
def readPage (before : Checkpoint) (invoke : GetHistory → Except String Batch) : Except String TaskPage :=
  match invoke (askFor before) with
  | .ok batch => readBatch h r before batch
  | .error code => if inaccessibleCodes.contains code then inaccessible before else .error "transport"

def readTaskPage (q : TaskRequest) (invoke : GetHistory → Except String Batch) : Except String TaskPage := do
  require (dateValid q.fromDate = true ∧ dateValid q.toDate = true ∧ q.fromDate ≤ q.toDate) "input"
  let before ← snapshotCheckpoint (q.checkpoint.getD (firstCheckpoint r q))
  require (before.accountId = r.accountId ∧ before.chatId = r.peerId) "binding"
  require (before.fromDate = q.fromDate ∧ before.toDate = q.toDate ∧ before.status = .more) "input"
  readPage h r before invoke

end Reading

end Neurobro.History
