import Mathlib.Logic.Function.Basic
import Neurobro.Coop.Process

/-! The ingestor: it reads what each source has missed, then takes live messages one after the other,
appends them to the export and moves the cursor of their source up to them. -/
namespace Neurobro.Ingestor

open Coop

structure SourceConfig where
  id : String
  peerId : String
  includeText : Bool := true
  initialBackfillMessages : Nat := 0
  deriving DecidableEq

structure Config where
  lookbackDays : Nat
  historyPageSize : Nat
  maxPagesPerSourcePerRun : Nat
  maxMessagesPerSourcePerRun : Nat
  liveBufferSize : Nat
  sources : List SourceConfig

/-- A message as the client hands it over, its dates in seconds. -/
structure Message where
  id : Int
  peerId : String
  date : Int
  editDate : Int := 0
  senderId : Option String := none
  fromId : Option String := none
  message : Option String := none
  media : Option String := none
  replyToMsgId : Option Int := none
  groupedId : Option String := none
  deriving DecidableEq

/-- A line of the export, its dates in milliseconds. -/
structure ExportedMessage where
  sourceId : String
  peerId : String
  messageId : Int
  date : Int
  editDate : Option Int
  senderId : Option String
  text : Option String
  mediaType : Option String
  replyToMessageId : Option Int
  groupedId : Option String
  deriving DecidableEq

def toIsoDate (seconds : Int) : Int := seconds * 1000

def optionalNumber (value : Int) : Option Int := if value.natAbs ≤ 9007199254740991 then some value else none

def normalizeMessage (source : SourceConfig) (m : Message) : ExportedMessage where
  sourceId := source.id
  peerId := source.peerId
  messageId := m.id
  date := toIsoDate m.date
  editDate := if m.editDate = 0 then none else some (toIsoDate m.editDate)
  senderId := m.senderId <|> m.fromId
  text := if source.includeText = true then some (m.message.getD "") else none
  mediaType := m.media
  replyToMessageId := m.replyToMsgId.bind optionalNumber
  groupedId := m.groupedId.filter (· ≠ "")

abbrev Cursors := String → Int

/-- How far the messages in hand are: just taken, found to be above the cursor, or appended. -/
inductive Stage where
  | taken
  | passed
  | appended
  deriving DecidableEq

structure Hand where
  source : String
  messages : List Message
  stage : Stage
  deriving DecidableEq

/-- The state object once it is loaded, its file, the export, and what waits for its turn. The run also
records the messages in hand, what each process was delivered and where each source began. -/
structure State where
  memory : Option Cursors := none
  file : Cursors
  sink : List ExportedMessage := []
  now : Int
  listening : Bool := false
  buffering : Bool := false
  buffer : List Message := []
  chain : List Message := []
  fatal : Bool := false
  running : Option Nat := none
  begun : Nat := 0
  hand : Option Hand := none
  delivered : List (String × Int) := []
  earlier : List (String × Int) := []
  start : Cursors

/-- Nothing is loaded yet, and nothing was exported past the cursors of the file. -/
def boot (file : Cursors) (now : Int) : State := { file := file, now := now, start := file }

section Config
variable (config : Config)

def Config.resolve (peerId : String) : Option SourceConfig := config.sources.find? fun source => source.peerId == peerId

/-- The source and the number a message goes by. -/
def Config.key (m : Message) : Option (String × Int) := (config.resolve m.peerId).map fun source => (source.id,m.id)

def keys (source : String) (messages : List Message) : List (String × Int) := messages.map fun m => (source,m.id)

def Hand.keys (h : Hand) : List (String × Int) := Ingestor.keys h.source h.messages

def State.cursor (s : State) : Cursors := s.memory.getD s.file

def dayMs : Int := 24 * 60 * 60 * 1000

def Config.recent (now : Int) (m : Message) : Bool := decide (now - config.lookbackDays * dayMs ≤ toIsoDate m.date)

def maximum (messages : List Message) : Int := (messages.map Message.id).max?.getD 0

/-- What is done at once, between two awaits. -/
inductive Cmd where
  | begin (listen : Bool)
  | adopt
  | receive (source : String) (messages : List Message)
  | shift
  | turn
  | pass (source : String) (message : Message)
  | append (batch : List ExportedMessage)
  | advance (source : String) (lastMessageId : Int)
  | skip (source : String) (lastMessageId : Int)
  | write (content : Cursors)
  | live
  | stop
  | arrive (message : Message)

abbrev Cmd.Result : Cmd → Type
  | .begin _ => Option Nat
  | .adopt => Unit
  | .receive _ _ => Unit
  | .shift => Option Message
  | .turn => Option Message
  | .pass _ _ => Bool
  | .append _ => Unit
  | .advance _ _ => Unit
  | .skip _ _ => Unit
  | .write _ => Unit
  | .live => Bool
  | .stop => Unit
  | .arrive _ => Unit

/-- The message that is taken is in hand. -/
def State.take (s : State) (m : Message) : State :=
  { s with hand := (config.resolve m.peerId).map fun source => ⟨source.id,[m],.taken⟩ }

def State.move (s : State) (source : String) (lastMessageId : Int) : State :=
  { s with memory := some (Function.update s.cursor source lastMessageId), hand := none }

def enqueue (m : Message) (s : State) : State :=
  if s.buffering = true then
    if config.liveBufferSize ≤ s.buffer.length then { s with fatal := true }
    else { s with buffer := s.buffer ++ [m] }
  else { s with chain := s.chain ++ [m] }

/-- The handler of live messages. -/
def handler (m : Message) (s : State) : State :=
  enqueue config m { s with delivered := s.delivered ++ (config.key m).toList }

def exec : (cmd : Cmd) → State → cmd.Result × State
  | .begin listen,s =>
    match s.running with
    | none => (some s.begun,{ s with running := some s.begun, begun := s.begun + 1, listening := listen, buffering := listen })
    | some _ => (none,s)
  | .adopt,s => ((),{ s with memory := some s.file })
  | .receive source messages,s =>
    ((),{ s with hand := if messages = [] then none else some ⟨source,messages,.passed⟩
                 delivered := s.delivered ++ keys source messages })
  | .shift,s =>
    match s.buffer with
    | [] => (none,s)
    | m :: rest => (some m,{ s with buffer := rest }.take config m)
  | .turn,s =>
    match s.chain with
    | [] => (none,s)
    | m :: rest => (some m,{ s with chain := rest }.take config m)
  | .pass source m,s =>
    if m.id ≤ s.cursor source then (false,{ s with hand := none })
    else (true,{ s with hand := some ⟨source,[m],.passed⟩ })
  | .append batch,s => ((),{ s with sink := s.sink ++ batch, hand := s.hand.map fun h => { h with stage := .appended } })
  | .advance source lastMessageId,s => ((),s.move source lastMessageId)
  | .skip source lastMessageId,s => ((),{ s.move source lastMessageId with start := Function.update s.start source (max (s.start source) lastMessageId) })
  | .write content,s => ((),{ s with file := content })
  | .live,s => (s.fatal,{ s with buffering := false })
  | .stop,s => ((),{ s with listening := false })
  | .arrive m,s => ((),if s.listening = true then handler config m s else s)

inductive Err where
  | error (message : String)
  | guard (code : String)
  deriving DecidableEq

/-- What is awaited from outside. -/
inductive Call where
  | readFile
  | writeFile (content : Cursors)
  | appendFile (batch : List ExportedMessage)
  | collectMessages (source : SourceConfig) (limit : Nat) (minId : Option Int)
  | idle
  | never

abbrev Call.Reply : Call → Type
  | .readFile => Except Err Unit
  | .writeFile _ => Except Err Unit
  | .appendFile _ => Except Err Unit
  | .collectMessages _ _ _ => Except Err (List Message)
  | .idle => Bool
  | .never => Empty

/-- A process that ends leaves its files. -/
def restart (s : State) : State :=
  { boot s.file s.now with sink := s.sink, begun := s.begun, earlier := s.earlier ++ s.delivered, start := s.start }

/-- Time passes. -/
structure Tick where
  ms : Nat

def ingestor : Signature where
  State := State
  Err := Err
  Cmd := Cmd
  Result := Cmd.Result
  exec := exec config
  Call := Call
  Reply := Call.Reply
  Shock := Tick
  shock x s := { s with now := s.now + x.ms }
  restart := restart

abbrev Ingest := Async (ingestor config)

abbrev commit (cmd : Cmd) : Ingest config cmd.Result := Async.act (S := ingestor config) cmd

abbrev ask (q : Call) : Ingest config q.Reply := Async.call (S := ingestor config) q

abbrev view (f : State → α) : Ingest config α := Async.look (S := ingestor config) f

def load : Ingest config Unit := do
  match ← view config State.memory with
  | some _ => pure ()
  | none => do
    let content ← ask config .readFile
    Async.lift content
    commit config .adopt

def save : Ingest config Unit := do
  Async.await (load config)
  let content ← view config State.cursor
  let written ← ask config (.writeFile content)
  Async.lift written
  commit config (.write content)

def append : List ExportedMessage → Ingest config Unit
  | [] => pure ()
  | first :: rest =>
    if first.sourceId = "" ∨ rest.any (fun m => m.sourceId != first.sourceId) = true then
      Async.lift (.error (.error "A JSONL append batch must contain exactly one source."))
    else do
      let appended ← ask config (.appendFile (first :: rest))
      Async.lift appended
      commit config (.append (first :: rest))

def ordered (messages : List Message) : List Message := messages.mergeSort fun a b => decide (a.id ≤ b.id)

def persistBatch (source : SourceConfig) (messages : List Message) : Ingest config Nat :=
  if messages = [] then pure 0
  else do
    let now ← view config State.now
    let exportable := (ordered messages).filter (config.recent now)
    Async.await (append config (exportable.map (normalizeMessage source)))
    Async.await (load config)
    commit config (.advance source.id (maximum (ordered messages)))
    Async.await (save config)
    return messages.length

/-- A guarded request saves the state first. -/
def collect (source : SourceConfig) (limit : Nat) (minId : Option Int) : Ingest config (List Message) := do
  Async.await (save config)
  let collected ← ask config (.collectMessages source limit minId)
  let messages ← Async.lift collected
  commit config (.receive source.id messages)
  return messages

def initialSync (source : SourceConfig) : Ingest config Nat := do
  let messages ← Async.await (collect config source (max 1 source.initialBackfillMessages) none)
  if source.initialBackfillMessages = 0 ∧ messages ≠ [] then do
    Async.await (load config)
    commit config (.skip source.id (maximum messages))
    Async.await (save config)
    return 0
  else persistBatch config source messages

/-- The pages of one source, as many as are left. -/
def syncPages (source : SourceConfig) : Nat → Nat → Int → Ingest config Nat
  | 0,total,_ => return total
  | pages + 1,total,cursor =>
    if config.maxMessagesPerSourcePerRun - total = 0 then return total
    else do
      let limit := min config.historyPageSize (config.maxMessagesPerSourcePerRun - total)
      let messages ← Async.await (collect config source limit (some cursor))
      if messages = [] then return total
      else do
        let persisted ← Async.await (persistBatch config source messages)
        if messages.length < limit then return total + persisted
        else syncPages source pages (total + persisted) (max cursor (maximum messages))

def syncSource (source : SourceConfig) : Ingest config Nat := do
  Async.await (load config)
  let cursor ← view config fun s => s.cursor source.id
  if cursor = 0 then initialSync config source
  else syncPages config source config.maxPagesPerSourcePerRun 0 cursor

def syncAll : Ingest config Unit :=
  Async.each config.sources fun source => do
    let _ ← Async.await (syncSource config source)
    pure ()

def ingestLiveMessage (m : Message) : Ingest config Unit :=
  match config.resolve m.peerId with
  | none => pure ()
  | some source => do
    Async.await (load config)
    let above ← commit config (.pass source.id m)
    if above = true then do
      let _ ← Async.await (persistBatch config source [m])
      pure ()
    else pure ()

/-- What was buffered while the sources were read, for so many turns. -/
def drain : Nat → Ingest config Unit
  | 0 => do
    let never ← ask config .never
    nomatch never
  | turns + 1 => do
    match ← commit config .shift with
    | none => pure ()
    | some m => do
      Async.await (ingestLiveMessage config m)
      drain turns

/-- The chain of live messages, for so many turns. -/
def chained : Nat → Ingest config Unit
  | 0 => do
    let never ← ask config .never
    nomatch never
  | turns + 1 => do
    match ← commit config .turn with
    | some m => do
      Async.await (ingestLiveMessage config m)
      chained turns
    | none => do
      let aborted ← ask config .idle
      if aborted = true then pure () else chained turns

def watched (turns : Nat) : Ingest config Unit := do
  Async.await (syncAll config)
  drain config turns
  let fatal ← commit config .live
  if fatal = true then Async.lift (.error (.error "Live update buffer overflowed; stopping without dropping messages silently."))
  else chained config turns

/-- One command a process: the sources are read once, or watched from then on. -/
def sync : Ingest config Unit := do
  match ← commit config (.begin false) with
  | none => pure ()
  | some _ => syncAll config

def watch (turns : Nat) : Ingest config Unit := do
  match ← commit config (.begin true) with
  | none => pure ()
  | some _ => do
    let result ← Async.settle (watched config turns)
    commit config .stop
    Async.lift result

inductive Op where
  | sync
  | watch (turns : Nat)
  | arrive (message : Message)

def body : Op → Proc (ingestor config)
  | .sync => sync config .done
  | .watch turns => watch config turns .done
  | .arrive m => commit config (.arrive m) fun _ => .done (.ok ())

end Config

end Neurobro.Ingestor
