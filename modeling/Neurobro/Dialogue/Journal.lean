import Neurobro.Data.JsonSize
import Neurobro.Data.Keyed
import Neurobro.Delivery.Outbox

/-! The journal of dialogues: for each question one file, for its admission one, for its outcome one.
Files are written once and never changed. What a handle may record further is kept in its memory. -/
namespace Neurobro.Dialogue

open Telegram

structure Primary where
  chatId : String
  ownerId : String
  messageId : Int
  text : String

structure Source where
  date : Int
  displayName : String

structure Forwarded where
  originalDate : Int
  sourceName : Option String

structure Message where
  chatId : String
  messageId : Int
  authorId : String
  author : String
  displayName : String
  date : Int
  replyToMessageId : Option Int
  text : String
  forwarded : Option Forwarded := none

structure Context where
  version : String
  primary : Message
  replyChain : List Message
  recent : List Message
  chainStatus : String
  recentStatus : String

structure Question where
  primary : Primary
  source : Option Source := none
  context : Option Context := none

inductive Delivery where
  | verified
  | unknown
  | notSent
  deriving DecidableEq

inductive AnswerKind where
  | model
  | deferred
  deriving DecidableEq

/-- `image` says that a generated image is part of the answer. -/
structure Outcome where
  key : String
  delivery : Delivery
  kind : AnswerKind
  answer : Option String
  entities : Option (List Json) := none
  deliveryDiagnostic : Option Pilot.DeliveryDiagnostic := none
  image : Bool := false

structure Admission where
  key : String
  attemptRef : String

structure Binding where
  accountId : String
  peerId : String

/-- Digests, how numbers are written, and whether formatting fits a text. -/
structure Host where
  hash : Question → String
  render : Rat → String
  entitiesFit : String → List Json → Bool

def incomingTextBytes : Nat := 16384
def contextBound : Nat := 65536
def directoryBound : Nat := 30001

def textFits (text : String) (cap : Nat) : Bool := decide (text ≠ "") && !hasNul text && decide (text.utf8ByteSize ≤ cap)

def dated (date : Int) : Bool := safeInteger date && decide (0 < date)

/-! The checks of what is recorded and of what is read back. -/

/-- Control characters and marks that turn the direction of text. -/
def steering (c : Char) : Bool :=
  decide (c.toNat ≤ 0x1f) || decide (0x7f ≤ c.toNat ∧ c.toNat ≤ 0x9f) || decide (0x202a ≤ c.toNat ∧ c.toNat ≤ 0x202e) ||
    decide (0x2066 ≤ c.toNat ∧ c.toNat ≤ 0x2069)

def forwardedFits (f : Forwarded) : Bool :=
  dated f.originalDate && decide (f.originalDate ≤ 253402300799) &&
  match f.sourceName with
  | none => true
  | some name => textFits name 128 && decide (Agent.trim name = name) && !name.toList.any steering

def checkMessage (b : Binding) (m : Message) : Bool :=
  decide (m.chatId = b.peerId) && messageIdValid m.messageId && userId m.authorId &&
  decide (m.author = if m.authorId = b.accountId then "self" else "user") && textFits m.displayName 512 &&
  textFits m.text incomingTextBytes && dated m.date &&
  (match m.replyToMessageId with
  | none => true
  | some reply => messageIdValid reply && decide (reply < m.messageId)) &&
  match m.forwarded with
  | none => true
  | some f => forwardedFits f

/-- The chain of replies, each the one that the message before it answers; the messages seen. -/
def replyChain (b : Binding) (latest : Int) : List Int → Option Int → List Message → Option (List Int)
  | seen,_,[] => some seen
  | seen,next,m :: rest =>
    if checkMessage b m && decide (next = some m.messageId) && !seen.contains m.messageId && decide (m.date ≤ latest) then
      replyChain b latest (m.messageId :: seen) m.replyToMessageId rest
    else none

def recentFits (b : Binding) (p : Primary) (latest : Int) : List Int → Int → List Message → Bool
  | _,_,[] => true
  | seen,previous,m :: rest =>
    checkMessage b m && !seen.contains m.messageId && decide (previous < m.messageId) && decide (m.messageId < p.messageId) &&
      decide (m.date ≤ latest) && recentFits b p latest (m.messageId :: seen) m.messageId rest

def forwardedJson (f : Forwarded) : Json :=
  .obj [("originalDate",.num (.finite f.originalDate)),("sourceName",(f.sourceName.map Json.str).getD .null)]

def messageJson (m : Message) : Json :=
  .obj ([("chatId",.str m.chatId),("messageId",.num (.finite m.messageId)),("authorId",.str m.authorId),("author",.str m.author),
    ("displayName",.str m.displayName),("date",.num (.finite m.date)),
    ("replyToMessageId",(m.replyToMessageId.map fun (n : Int) => Json.num (.finite n)).getD .null),("text",.str m.text)] ++
    (m.forwarded.map fun f => ("forwarded",forwardedJson f)).toList)

def contextJson (c : Context) : Json :=
  .obj [("version",.str c.version),("primary",messageJson c.primary),("replyChain",.arr (c.replyChain.map messageJson)),
    ("recent",.arr (c.recent.map messageJson)),("chainStatus",.str c.chainStatus),("recentStatus",.str c.recentStatus)]

def primaryFits (b : Binding) (p : Primary) : Bool :=
  decide (p.chatId = b.peerId) && messageIdValid p.messageId && userId p.ownerId && decide (p.ownerId ≠ b.accountId) &&
    textFits p.text incomingTextBytes

def sourceFits (s : Source) : Bool := dated s.date && textFits s.displayName 512

/-- The message itself stands in its context as it is asked. -/
def contextHead (q : Question) (c : Context) : Bool :=
  c.primary.forwarded.isNone && decide (c.primary.messageId = q.primary.messageId) && decide (c.primary.authorId = q.primary.ownerId) &&
  decide (c.primary.text = q.primary.text) && decide (c.primary.author = "user") &&
  match q.source with
  | none => true
  | some s => decide (s.date = c.primary.date) && decide (s.displayName = c.primary.displayName)

def contextFits (h : Host) (b : Binding) (q : Question) (c : Context) : Bool :=
  decide (Json.size h.render (contextJson c) ≤ contextBound) && decide (c.version = "standing-context-v1") &&
  decide (c.replyChain.length ≤ 8) && decide (c.recent.length ≤ 20) &&
  ["complete","partial","missing","truncated","unavailable"].contains c.chainStatus &&
  ["complete","partial","truncated","unavailable"].contains c.recentStatus &&
  checkMessage b c.primary && contextHead q c &&
  match replyChain b c.primary.date [q.primary.messageId] c.primary.replyToMessageId c.replyChain with
  | none => false
  | some seen => recentFits b q.primary c.primary.date seen 0 c.recent

def validateQuestion (h : Host) (b : Binding) (q : Question) : Bool :=
  primaryFits b q.primary && (q.source.map sourceFits).getD true && (q.context.map (contextFits h b q)).getD true

def decimalValue (digits : List Char) : Nat := digits.foldl (fun n c => 10 * n + (c.toNat - '0'.toNat)) 0

/-- The number that a key of ten digits stands for. -/
def keyNumber (key : String) : Option Int :=
  if key.toList.length = 10 ∧ key.toList.all Char.isDigit = true ∧ messageIdValid (decimalValue key.toList) = true then
    some (decimalValue key.toList)
  else none

def deliveryFits (o : Outcome) : Bool :=
  match o.deliveryDiagnostic with
  | none => true
  | some d => decide (o.delivery = if d = .preDispatchRefused then .notSent else .unknown) && !o.image

def validateOutcome (h : Host) (o : Outcome) : Bool :=
  (keyNumber o.key).isSome && (o.answer.map fun a => textFits a 4096).getD true &&
  !(decide (o.delivery = .verified) && o.answer.isNone) && (!o.image || (decide (o.kind = .model) && o.answer.isSome)) &&
  (match o.entities with
  | none => true
  | some entities => !o.image && (o.answer.map fun a => h.entitiesFit a entities).getD false) && deliveryFits o

def refChar (c : Char) : Bool := c.isAlphanum || ['.','_','-'].contains c

def validateAdmission (a : Admission) : Bool :=
  (keyNumber a.key).isSome &&
  match a.attemptRef.toList with
  | [] => false
  | c :: rest => c.isAlphanum && rest.all refChar && decide (rest.length ≤ 127)

/-! Files and handles. -/

structure Stored where
  key : Int
  question : Question
  recordedAt : Int

structure Handle where
  readOnly : Bool
  closed : Bool := false
  /-- For which questions an outcome may be recorded, with the digest of each. -/
  claims : List (Int × String) := []

structure World where
  /-- The file that marks the directory as a journal. -/
  marked : Bool := false
  questions : List Stored := []
  admissions : List (Int × Admission) := []
  outcomes : List (Int × Outcome) := []
  /-- All handles there ever were. -/
  handles : List Handle := []

/-- What the surroundings do to a call: nothing; a check or a read fails, so does the step before the
file is made; or the call fails when its file is there already. -/
inductive Fate where
  | fine_
  | reads
  | refused
  | late
  deriving DecidableEq

structure ReadOptions where
  limit : Int
  fromDate : Option Int := none
  toDate : Option Int := none
  scanLimit : Option Int := none

inductive Event where
  | open_ (readOnly : Bool) (fate : Fate)
  | recordQuestion (handle : Nat) (question : Question) (now : Int) (fate : Fate)
  | recordModelAdmission (handle : Nat) (admission : Admission) (fate : Fate)
  | recordOutcome (handle : Nat) (outcome : Outcome) (fate : Fate)
  | read (handle : Nat) (options : ReadOptions) (fate : Fate)
  | close (handle : Nat)
  /-- The process dies: no handle is left. -/
  | crash

structure JournalDialogue where
  key : Int
  question : Question
  recordedAt : Int
  modelAdmission : Option Admission
  outcome : Option Outcome
  /-- `none` while the dialogue is pending. -/
  status : Option Delivery

structure Page where
  dialogues : List JournalDialogue
  scanned : Nat
  hasOlder : Bool

inductive Answer where
  | refused
  | opened (handle : Nat)
  | question (key : Int) (created : Bool)
  | admission (key : Int) (created : Bool)
  | recorded (key : Int)
  | page (page : Page)
  | done

/-- A handle that still takes calls. -/
def World.handle? (w : World) (n : Nat) : Option Handle := w.handles[n]?.filter fun handle => !handle.closed

def World.question? (w : World) (key : Int) : Option Stored := Keyed.get Stored.key key w.questions
def World.admission? (w : World) (key : Int) : Option Admission := (Keyed.get Prod.fst key w.admissions).map Prod.snd
def World.outcome? (w : World) (key : Int) : Option Outcome := (Keyed.get Prod.fst key w.outcomes).map Prod.snd

def World.claim (w : World) (n : Nat) (handle : Handle) (key : Int) (digest : String) : World :=
  { w with handles := w.handles.set n { handle with claims := (key,digest) :: Keyed.delete Prod.fst key handle.claims } }

def World.unclaim (w : World) (n : Nat) (handle : Handle) (key : Int) : World :=
  { w with handles := w.handles.set n { handle with claims := Keyed.delete Prod.fst key handle.claims } }

/-- A question as it is read back: what is stored has to pass its checks again. -/
def World.readQuestion (h : Host) (b : Binding) (w : World) (key : Int) : Option Stored :=
  (w.question? key).filter fun s => dated s.recordedAt && validateQuestion h b s.question && decide (s.question.primary.messageId = key)

def admissionReads (key : Int) (a : Admission) : Bool := validateAdmission a && decide (keyNumber a.key = some key)

def outcomeReads (h : Host) (key : Int) (o : Outcome) : Bool := validateOutcome h o && decide (keyNumber o.key = some key)

def World.openJournal (w : World) (readOnly : Bool) (fate : Fate) : World × Answer :=
  if fate = .reads ∨ fate = .refused ∨ (readOnly = true ∧ w.marked = false) then (w,.refused)
  else if fate = .late then ({ w with marked := true },.refused)
  else ({ w with marked := true, handles := w.handles ++ [{ readOnly := readOnly }] },.opened w.handles.length)

def World.ask (w : World) (question : Question) (now : Int) : World :=
  { w with questions := w.questions ++ [⟨question.primary.messageId,question,now⟩] }

def World.admitIn (w : World) (key : Int) (a : Admission) : World := { w with admissions := w.admissions ++ [(key,a)] }

def World.conclude (w : World) (key : Int) (o : Outcome) : World := { w with outcomes := w.outcomes ++ [(key,o)] }

def World.recordQuestion (h : Host) (b : Binding) (w : World) (n : Nat) (question : Question) (now : Int) (fate : Fate) : World × Answer :=
  match w.handle? n with
  | none => (w,.refused)
  | some handle =>
    if handle.readOnly = true ∨ fate = .reads ∨ validateQuestion h b question = false ∨ fate = .refused then (w,.refused)
    else
      match w.question? question.primary.messageId with
      | none =>
        if fate = .late then (w.ask question now,.refused)
        else ((w.ask question now).claim n handle question.primary.messageId (h.hash question),.question question.primary.messageId true)
      | some _ =>
        match w.readQuestion h b question.primary.messageId with
        | none => (w,.refused)
        | some existing =>
          if h.hash existing.question ≠ h.hash question then (w,.refused) else (w,.question question.primary.messageId false)

/-- The admission of a question that has no outcome. -/
def World.admitting (h : Host) (w : World) (n : Nat) (handle : Handle) (key : Int) (question : Question) (a : Admission) (fate : Fate) :
    World × Answer :=
  if fate = .refused then (w,.refused)
  else
    match w.admission? key with
    | some existing => if admissionReads key existing then (w.unclaim n handle key,.admission key false) else (w,.refused)
    | none =>
      if fate = .late then (w.admitIn key a,.refused)
      else ((w.admitIn key a).claim n handle key (h.hash question),.admission key true)

def World.recordModelAdmission (h : Host) (b : Binding) (w : World) (n : Nat) (a : Admission) (fate : Fate) : World × Answer :=
  match w.handle? n with
  | none => (w,.refused)
  | some handle =>
    if handle.readOnly = true ∨ fate = .reads ∨ validateAdmission a = false then (w,.refused)
    else
      match keyNumber a.key with
      | none => (w,.refused)
      | some key =>
        match w.readQuestion h b key with
        | none => (w,.refused)
        | some stored =>
          match w.outcome? key with
          | some outcome => if outcomeReads h key outcome then (w.unclaim n handle key,.admission key false) else (w,.refused)
          | none => w.admitting h n handle key stored.question a fate

def World.recordOutcome (h : Host) (b : Binding) (w : World) (n : Nat) (o : Outcome) (fate : Fate) : World × Answer :=
  match w.handle? n with
  | none => (w,.refused)
  | some handle =>
    if handle.readOnly = true ∨ fate = .reads ∨ validateOutcome h o = false then (w,.refused)
    else
      match keyNumber o.key with
      | none => (w,.refused)
      | some key =>
        match Keyed.get Prod.fst key handle.claims,w.readQuestion h b key with
        | some proof,some stored =>
          if h.hash stored.question ≠ proof.2 then (w,.refused)
          -- The claim is gone before anything is written.
          else if fate = .refused ∨ (w.outcome? key).isSome = true then (w.unclaim n handle key,.refused)
          else if fate = .late then ((w.unclaim n handle key).conclude key o,.refused)
          else ((w.unclaim n handle key).conclude key o,.recorded key)
        | _,_ => (w,.refused)

/-! Reading. -/

def scanLimitOf (o : ReadOptions) : Int := o.scanLimit.getD (max o.limit 100)

def optionsValid (o : ReadOptions) : Bool :=
  decide (1 ≤ o.limit ∧ o.limit ≤ 100) && decide (o.limit ≤ scanLimitOf o ∧ scanLimitOf o ≤ 200) && (o.fromDate.map dated).getD true &&
  (o.toDate.map dated).getD true && !((o.fromDate.bind fun a => o.toDate.map fun z => decide (z < a)).getD false)

def dateOf (q : Question) : Option Int := (q.source.map Source.date).or (q.context.map fun c => c.primary.date)

def within (o : ReadOptions) (q : Question) : Bool :=
  (o.fromDate.isNone && o.toDate.isNone) ||
  match dateOf q with
  | none => false
  | some date => !((o.fromDate.map fun a => decide (date < a)).getD false) && !((o.toDate.map fun z => decide (z < date)).getD false)

/-- One dialogue, its files read back. -/
def World.dialogue (h : Host) (w : World) (s : Stored) : Option JournalDialogue :=
  let admission := w.admission? s.key
  let outcome := w.outcome? s.key
  if (admission.map (admissionReads s.key)).getD true && (outcome.map (outcomeReads h s.key)).getD true then
    some ⟨s.key,s.question,s.recordedAt,admission,outcome,outcome.map Outcome.delivery⟩
  else none

/-- Newest first, until there is no room for another dialogue. -/
def World.scan (h : Host) (b : Binding) (w : World) (o : ReadOptions) : Nat → List Int → Option (List JournalDialogue × Nat)
  | 0,_ => some ([],0)
  | _ + 1,[] => some ([],0)
  | room + 1,key :: rest => do
    let stored ← w.readQuestion h b key
    if within o stored.question then do
      let dialogue ← w.dialogue h stored
      let (later,scanned) ← w.scan h b o room rest
      some (dialogue :: later,scanned + 1)
    else do
      let (later,scanned) ← w.scan h b o (room + 1) rest
      some (later,scanned + 1)

def World.entries (w : World) : Nat := 1 + w.questions.length + w.admissions.length + w.outcomes.length

/-- No admission and no outcome is without its question. -/
def World.matched (w : World) : Bool :=
  (w.admissions.map Prod.fst ++ w.outcomes.map Prod.fst).all fun key => (w.question? key).isSome

def World.ordered (w : World) : List Int := (w.questions.map Stored.key).insertionSort fun a z => decide (z ≤ a)

def World.read (h : Host) (b : Binding) (w : World) (n : Nat) (o : ReadOptions) (fate : Fate) : World × Answer :=
  match w.handle? n with
  | none => (w,.refused)
  | some _ =>
    if fate ≠ .fine_ ∨ optionsValid o = false ∨ directoryBound < w.entries ∨ w.matched = false then (w,.refused)
    else
      match w.scan h b o o.limit.toNat (w.ordered.take (scanLimitOf o).toNat) with
      | none => (w,.refused)
      | some (dialogues,scanned) => (w,.page ⟨dialogues.reverse,scanned,decide (scanned < w.ordered.length)⟩)

def World.step (h : Host) (b : Binding) (w : World) : Event → World × Answer
  | .open_ readOnly fate => w.openJournal readOnly fate
  | .recordQuestion n question now fate => w.recordQuestion h b n question now fate
  | .recordModelAdmission n admission fate => w.recordModelAdmission h b n admission fate
  | .recordOutcome n outcome fate => w.recordOutcome h b n outcome fate
  | .read n options fate => w.read h b n options fate
  | .close n =>
    match w.handles[n]? with
    | none => (w,.refused)
    | some handle => ({ w with handles := w.handles.set n { handle with closed := true, claims := [] } },.done)
  | .crash => ({ w with handles := w.handles.map fun handle : Handle => { handle with closed := true, claims := [] } },.done)

/-- What comes of events one after another, with the answer to each. -/
def World.run (h : Host) (b : Binding) (w : World) : List Event → World × List (Event × Answer)
  | [] => (w,[])
  | event :: rest =>
    let next := w.step h b event
    let later := World.run h b next.1 rest
    (later.1,(event,next.2) :: later.2)

end Neurobro.Dialogue
