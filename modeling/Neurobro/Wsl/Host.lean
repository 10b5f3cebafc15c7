import Neurobro.Wsl.Codec

/-! The host behind the pipe: what it reads from an accepted snapshot, what it asks of the
owners of the gateway and of the proposals, and how it answers one request at a time. A
request that comes while another is served is refused outright and changes nothing. -/
namespace Neurobro.Wsl

open JsonText

structure SnapshotFile where
  path : String
  text : String
  sha256 : String
  mode : String

structure AcceptedSnapshot where
  repository : String
  commit : String
  tree : String
  files : List SnapshotFile

structure HostOptions where
  session : Session
  snapshot : AcceptedSnapshot
  acceptsSnapshot : Bool
  chat : String

/-- What the host holds for good. -/
structure Broker where
  session : Session
  chat : String
  repository : String
  commit : String
  tree : String
  files : List SnapshotFile

def Broker.limits (b : Broker) : Limits := b.session.limits

/-! ## Paths -/

def pathChar (c : Char) : Bool := c.isAlphanum || c = '_' || c = '.' || c = '/' || c = '-'

/-- A word at the start of a part, alone or before a dot, in any case. -/
def startsAs (word part : List Char) : Bool :=
  let lower := part.map Char.toLower
  word.isPrefixOf lower && (lower.length = word.length || (lower.drop word.length).head? = some '.')

def refusedPart (part : List Char) : Bool :=
  part = [] || part = ['.'] || part = ['.','.'] || startsAs ".git".toList part || startsAs ".env".toList part ||
    startsAs "credential".toList part || startsAs "credentials".toList part || startsAs "session".toList part ||
    startsAs "sessions".toList part

def relativePath (value : String) : Except Code Unit := do
  requireBroker (boundedText value 240) .invalidRequest
  requireBroker (value.toList ≠ [] && value.toList.all pathChar && value.toList.head? ≠ some '/' &&
    value.toList.getLast? ≠ some '/') .invalidRequest
  requireBroker ((value.toList.splitOn '/').all fun part => !refusedPart part) .pathRefused

/-! ## Making a host -/

def snapshotMode (mode : String) : Bool := mode = "100644" || mode = "100755"

/-- One file more, and the bytes of the texts so far. -/
def takeFile (crypto : Crypto) (maxTextBytes : Nat) (taken : List SnapshotFile × Nat) (entry : SnapshotFile) :
    Except Code (List SnapshotFile × Nat) := do
  relativePath entry.path
  requireBroker (boundedText entry.text maxTextBytes) .invalidRequest
  requireBroker (snapshotMode entry.mode) .snapshotFileKind
  requireBroker (!(taken.1.any fun f => f.path = entry.path) && crypto.sha256 entry.text = entry.sha256) .snapshotIntegrity
  let size := taken.2 + entry.text.utf8ByteSize
  requireBroker (decide (size ≤ 1048576)) .snapshotBudget
  .ok (taken.1 ++ [entry],size)

def createWslBrokerHost (crypto : Crypto) (input : HostOptions) : Except Code Broker := do
  let session ← sessionOptions input.session
  requireBroker (boundedText input.chat 64 && input.chat ≠ "") .invalidRequest
  requireBroker (input.snapshot.repository = "DecadansNeurobro" && hexText 40 input.snapshot.commit &&
    hexText 40 input.snapshot.tree) .snapshotRefused
  requireBroker input.acceptsSnapshot .snapshotNotAccepted
  requireBroker (decide (input.snapshot.files.length ≤ 256)) .snapshotBudget
  let (files,_) ← input.snapshot.files.foldlM (takeFile crypto session.limits.maxTextBytes) ([],0)
  .ok ⟨session,input.chat,input.snapshot.repository,input.snapshot.commit,input.snapshot.tree,files⟩

/-! ## The handlers -/

/-- What an owner answers: a value, a failure, or nothing before the deadline. -/
inductive Answer where
  | value (v : Json)
  | failed
  | late

/-- A reading of the clock: a safe integer, another number, or a throw. -/
inductive Reading where
  | at_ (t : Int)
  | unfit
  | throws

/-- What the surroundings answer while one request is served. -/
structure Moment where
  now : Reading
  killSwitch : Option Bool
  /-- Whether the clock could be read for the timer. -/
  timed : Bool
  read : Answer
  enqueue : Answer
  /-- Whether the host was closed before the handler was through. -/
  closed : Bool
  completedAt : Reading

def boundedField (args : Json) (key : String) (maxBytes : Nat) : Except Code String := do
  let text ← requireSome (text? (args.field? key)) .invalidRequest
  requireBroker (boundedText text maxBytes) .invalidRequest
  .ok text

def finiteLimit (value : Option Json) (max : Nat) : Except Code Nat := do
  let n ← requireSome (int? value) .invalidRequest
  requireBroker (decide (0 < n ∧ n ≤ max)) .invalidRequest
  .ok n.toNat

def isObject : Json → Bool
  | .obj _ => true
  | _ => false

def sortTexts (texts : List String) : List String := texts.insertionSort fun a b => unitsLe (utf16Units a) (utf16Units b)

def Broker.identity (b : Broker) : List (String × Json) :=
  [("repository",.str b.repository),("commit",.str b.commit),("tree",.str b.tree)]

def Broker.listing (b : Broker) (paths : List String) (limit : Nat) : Json :=
  .obj (b.identity ++ [("paths",.arr ((paths.take limit).map .str)),("truncated",.bool (decide (limit < paths.length)))])

/-- Whether a text stands somewhere in another. -/
def includes (text query : List Char) : Bool := text.tails.any query.isPrefixOf

def Broker.snapshotList (b : Broker) (args : Json) : Except Code Json := do
  requireBroker (exactKeys args ["prefix","limit"]) .invalidRequest
  let start ← boundedField args "prefix" 240
  let limit ← finiteLimit (args.field? "limit") b.limits.maxItems
  if start ≠ "" then relativePath start else .ok ()
  .ok (b.listing (sortTexts ((b.files.map SnapshotFile.path).filter fun p => start.toList.isPrefixOf p.toList)) limit)

def Broker.snapshotRead (b : Broker) (args : Json) : Except Code Json := do
  requireBroker (exactKeys args ["path"]) .invalidRequest
  let path ← requireSome (text? (args.field? "path")) .invalidRequest
  relativePath path
  let file ← requireSome (b.files.find? fun f => f.path = path) .notFound
  .ok (.obj (b.identity ++ [("path",.str file.path),("text",.str file.text),("sha256",.str file.sha256)]))

def Broker.snapshotSearch (b : Broker) (args : Json) : Except Code Json := do
  requireBroker (exactKeys args ["query","limit"]) .invalidRequest
  let query ← boundedField args "query" 256
  requireBroker (query ≠ "") .invalidRequest
  let limit ← finiteLimit (args.field? "limit") b.limits.maxItems
  .ok (b.listing (sortTexts ((b.files.filter fun f => includes f.text.toList query.toList).map SnapshotFile.path)) limit)

def contextMethods : List String :=
  ["telegram.anchor.read","telegram.range.read","telegram.reply_chain.read","telegram.search","telegram.media_derivative.read"]

def contextFields (method : String) : List String :=
  if method = "telegram.range.read" then ["chat","from","to","cursor","limit"]
  else if method = "telegram.search" then ["chat","query","cursor","limit"]
  else ["chat","anchor","limit"]

/-- A text argument that may not be empty, where it is among the arguments. -/
def wordArgument (args : Json) (key : String) (maxBytes : Nat) : Except Code Unit :=
  match args.field? key with
  | none => .ok ()
  | some _ => do
    let text ← boundedField args key maxBytes
    requireBroker (text ≠ "") .invalidRequest

/-- A text of at most so many bytes, or null. -/
def cursorText (value : Json) : Except Code Unit :=
  match value with
  | .null => .ok ()
  | .str s => requireBroker (boundedText s 256) .invalidRequest
  | _ => .error .invalidRequest

def rangeArguments (args : Json) : Except Code Unit :=
  match args.field? "from" with
  | none => .ok ()
  | some from_ => do
    let first ← requireSome (int? (some from_)) .invalidRequest
    let last ← requireSome (int? (args.field? "to")) .invalidRequest
    requireBroker (decide (0 ≤ first ∧ first < last)) .invalidRequest

/-- What a page of primaries must be like. -/
def pageItem (kind : String) (maxTextBytes : Nat) (item : Json) : Except Code Unit := do
  requireBroker (exactKeys item ["kind","anchor","text"]) .invalidRequest
  requireBroker (text? (item.field? "kind") = some kind) .invalidRequest
  let _ ← boundedField item "anchor" 128
  let _ ← boundedField item "text" maxTextBytes
  .ok ()

def items? : Option Json → Option (List Json)
  | some (.arr items) => some items
  | _ => none

/-- How a call of an owner ends for the handler: with a value, or by its failure. -/
def Answer.settled : Answer → Except Code Json
  | .value v => .ok v
  | .failed => .error .ownerOutcomeUnknown
  | .late => .error .deadlineUnknown

def Broker.readContext (b : Broker) (m : Moment) (method : String) (args : Json) : Except Code Json := do
  requireBroker (exactKeys args (contextFields method)) .invalidRequest
  requireBroker (text? (args.field? "chat") = some b.chat) .chatRefused
  let limit ← finiteLimit (args.field? "limit") b.limits.maxItems
  wordArgument args "anchor" 128
  wordArgument args "query" 256
  match args.field? "cursor" with
  | none => .ok ()
  | some cursor => cursorText cursor
  rangeArguments args
  let page ← m.read.settled
  requireBroker (exactKeys page ["items","nextCursor"]) .invalidRequest
  let items ← requireSome (items? (page.field? "items")) .responseBudget
  requireBroker (decide (items.length ≤ limit)) .responseBudget
  match page.field? "nextCursor" with
  | none => .error .invalidRequest
  | some cursor => cursorText cursor
  let kind := if method = "telegram.media_derivative.read" then "media-derivative" else "primary"
  let _ ← items.mapM (pageItem kind b.limits.maxTextBytes)
  let text ← canonicalJson page
  requireSome (parse text) .ownerOutcomeUnknown

/-- What a handler leaves behind: its answer, the key of a proposal it took on, and whether
it closed the host. -/
structure Dispatched where
  answer : Except Code Json
  proposal : Option String := none
  closes : Bool := false

/-- A proposal up to the moment its key is kept. -/
def Broker.proposalKey (b : Broker) (proposals : List String) (args : Json) : Except Code String := do
  requireBroker (exactKeys args ["kind","chat","anchor","text","idempotencyKey"]) .invalidRequest
  requireBroker (text? (args.field? "kind") = some "reply" && text? (args.field? "chat") = some b.chat) .proposalRefused
  let anchor ← boundedField args "anchor" 128
  let text ← boundedField args "text" b.limits.maxTextBytes
  let key ← boundedField args "idempotencyKey" 64
  requireBroker (hexText 32 key && text ≠ "" && anchor ≠ "") .invalidRequest
  requireBroker (!proposals.contains key) .duplicateProposal
  .ok key

def outcomeJson (outcome : String) : Json := .obj [("outcome",.str outcome)]

def Broker.submitProposal (b : Broker) (proposals : List String) (m : Moment) (args : Json) : Dispatched :=
  match b.proposalKey proposals args with
  | .error code => { answer := .error code }
  | .ok key =>
    match m.enqueue with
    | .failed => { answer := .error .ownerOutcomeUnknown, proposal := some key }
    | .late => { answer := .error .deadlineUnknown, proposal := some key }
    | .value outcome =>
      if text? (some outcome) = some "queued" ∨ text? (some outcome) = some "refused" then
        { answer := .ok (.obj [("outcome",outcome)]), proposal := some key }
      else
        { answer := .error .ownerOutcomeUnknown, proposal := some key, closes := text? (some outcome) = some "unknown" }

def Broker.dispatch (b : Broker) (proposals : List String) (m : Moment) (body : Json) : Dispatched :=
  match exactKeys body ["method","args"],text? (body.field? "method"),body.field? "args" with
  | true,some method,some args =>
    if isObject args = false then { answer := .error .invalidRequest }
    else if method = "snapshot.list" then { answer := b.snapshotList args }
    else if method = "snapshot.read" then { answer := b.snapshotRead args }
    else if method = "snapshot.search" then { answer := b.snapshotSearch args }
    else if method ∈ contextMethods then { answer := b.readContext m method args }
    else if method = "proposal.submit" then b.submitProposal proposals m args
    else { answer := .error .methodRefused }
  | _,_,_ => { answer := .error .invalidRequest }

/-! ## One request -/

inductive Outcome where
  | ok | refused | unknown
  deriving DecidableEq

def Outcome.text : Outcome → String
  | .ok => "ok"
  | .refused => "refused"
  | .unknown => "unknown"

structure Receipt where
  calls : Nat
  requestBytes : Nat
  responseBytes : Nat
  outcome : Outcome

structure State where
  lastSequence : Int := 0
  calls : Nat := 0
  usedBytes : Nat := 0
  closed : Bool := false
  lastNow : Int := 0
  proposals : List String := []
  receipts : List Receipt := []

/-- Whether what went wrong leaves the outcome unknown. -/
def Code.unknown (code : Code) : Bool := code = .ownerOutcomeUnknown || code = .deadlineUnknown

def codeJson (code : Code) : Json := .obj [("code",.str code.text)]

/-- What serving a request came to. -/
structure Conclusion where
  outcome : Outcome
  value : Json
  closed : Bool
  lastNow : Int
  proposals : List String

/-- The reading of the clock after the handler: not before the admission, and before the deadline. -/
def completion (m : Moment) (now deadlineMs : Int) : Except Code Int :=
  match m.completedAt with
  | .at_ t => if now ≤ t ∧ t < deadlineMs then .ok t else .error .deadlineUnknown
  | .unfit => .error .deadlineUnknown
  | .throws => .error .ownerOutcomeUnknown

/-- The guarded part: its value and the last reading of the clock. -/
def Broker.attempt (b : Broker) (dispatched : Dispatched) (m : Moment) (now deadlineMs : Int) : Except Code Json × Int :=
  match dispatched.answer with
  | .error code => (.error code,now)
  | .ok value =>
    if m.closed then (.error .ownerOutcomeUnknown,now)
    else
      match completion m now deadlineMs with
      | .error code => (.error code,now)
      | .ok completedAt =>
        match canonicalJson value with
        | .error code => (.error code,completedAt)
        | .ok text =>
          if text.utf8ByteSize ≤ b.limits.maxBodyBytes then (.ok value,completedAt) else (.error .responseBudget,completedAt)

/-- The conclusion of a failure: an unknown outcome closes the host. -/
def failure (code : Code) (closed : Bool) (lastNow : Int) (proposals : List String) : Conclusion :=
  ⟨if code.unknown then .unknown else .refused,codeJson code,closed || code.unknown,lastNow,proposals⟩

def Broker.conclude (b : Broker) (s : State) (request : BrokerFrame) (m : Moment) (now : Int) : Conclusion :=
  match m.killSwitch with
  | none => failure .ownerOutcomeUnknown m.closed now s.proposals
  | some true => failure .killSwitch m.closed now s.proposals
  | some false =>
    if m.timed = false then failure .ownerOutcomeUnknown m.closed now s.proposals
    else
      let dispatched := b.dispatch s.proposals m request.body
      let proposals := s.proposals ++ dispatched.proposal.toList
      match b.attempt dispatched m now request.deadlineMs with
      | (.ok value,lastNow) => ⟨.ok,value,m.closed || dispatched.closes,lastNow,proposals⟩
      | (.error code,lastNow) => failure code (m.closed || dispatched.closes) lastNow proposals

/-- The frame that answers a request. -/
def answer (request : BrokerFrame) (outcome : Outcome) (value : Json) : FrameCore where
  kind := .response
  keyId := request.keyId
  sessionId := request.sessionId
  id := request.id
  sequence := request.sequence
  deadlineMs := request.deadlineMs
  body := .obj [("outcome",.str outcome.text),("value",value)]

/-- Why a decoded request is not taken on, if it is not. -/
def Broker.refusal (b : Broker) (s : State) (bytes : Bytes) (request : BrokerFrame) (now : Int) : Option Code :=
  if request.sequence ≠ s.lastSequence + 1 then some .replayOrSequenceGap
  else if ¬(now < request.deadlineMs ∧ request.deadlineMs - now ≤ b.limits.maxDeadlineMs) then some .deadlineRefused
  else if ¬(s.calls < b.limits.maxCalls ∧ s.usedBytes + bytes.length + 1024 ≤ b.limits.maxSessionBytes) then
    some .sessionBudget
  else none

/-- The state in which a request is served. -/
def State.serving (s : State) (bytes : Bytes) (request : BrokerFrame) (c : Conclusion) : State :=
  { s with lastSequence := request.sequence, calls := s.calls + 1, usedBytes := s.usedBytes + bytes.length
           closed := c.closed, lastNow := c.lastNow, proposals := c.proposals }

/-- A response went out. -/
def State.sent (s : State) (bytes response : Bytes) (outcome : Outcome) : State :=
  { s with usedBytes := s.usedBytes + response.length
           receipts := s.receipts ++ [⟨s.calls,bytes.length,response.length,outcome⟩] }

/-- What a call of the host ends with: a frame, or an error, which has a code unless it is
not the contract's. -/
abbrev Reply := Except (Option Code) Bytes

def Broker.respond (crypto : Crypto) (b : Broker) (s : State) (bytes : Bytes) (request : BrokerFrame) (c : Conclusion) :
    Reply × State :=
  match encodeFrame crypto (answer request c.outcome c.value) b.session with
  | .error code => (.error (some code),s)
  | .ok response =>
    if b.limits.maxSessionBytes < s.usedBytes + response.length then
      match encodeFrame crypto (answer request .refused (codeJson .sessionBudget)) b.session with
      | .error code => (.error (some code),s)
      | .ok response => (.ok response,{ (s.sent bytes response .refused) with closed := true })
    else (.ok response,s.sent bytes response c.outcome)

/-- Serving what was decoded, at a reading of the clock. -/
def Broker.serve (crypto : Crypto) (b : Broker) (s : State) (bytes : Bytes) (request : BrokerFrame) (m : Moment) (now : Int) :
    Reply × State :=
  match b.refusal s bytes request now with
  | some code => (.error (some code),{ s with lastNow := now })
  | none =>
    b.respond crypto (s.serving bytes request (b.conclude s request m now)) bytes request (b.conclude s request m now)

def Broker.handle (crypto : Crypto) (b : Broker) (s : State) (bytes : Bytes) (m : Moment) : Reply × State :=
  if s.closed then (.error (some .sessionUnavailable),s)
  else
    match decodeFrame crypto bytes b.session .request with
    | .error code => (.error (some code),s)
    | .ok request =>
      match m.now with
      | .throws => (.error none,s)
      | .unfit => (.error (some .clockRefused),s)
      | .at_ now =>
        if now < s.lastNow then (.error (some .clockRefused),s) else b.serve crypto s bytes request m now

end Neurobro.Wsl
