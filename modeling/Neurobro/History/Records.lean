import Neurobro.Api.Text

/-! The records of a history task: where its reading stands, the pages that were read and
the sources they were read from. -/
namespace Neurobro.History

open Telegram

inductive Status where
  | more
  | lowerBoundReached
  | emptyPage
  | inaccessible
  deriving DecidableEq

def Status.text : Status → String
  | .more => "more"
  | .lowerBoundReached => "lower-bound-reached"
  | .emptyPage => "empty-page"
  | .inaccessible => "inaccessible"

/-- Where the reading of a period stands. Nothing older than `offsetId` was read yet; zero
means nothing at all. -/
structure Checkpoint where
  accountId : String
  chatId : String
  fromDate : Int
  toDate : Int
  offsetId : Int
  lastDate : Int
  oldestDate : Option Int
  newestDate : Option Int
  undated : Int
  pages : Int
  inexact : Bool
  upperBoundMessageId : Option Int
  status : Status
  deriving DecidableEq

inductive Author where
  | self
  | user
  | bot
  | unknown
  deriving DecidableEq

def Author.text : Author → String
  | .self => "self"
  | .user => "user"
  | .bot => "bot"
  | .unknown => "unknown"

structure Forwarded where
  originalDate : Int
  sourceName : Option String
  deriving DecidableEq

structure Message where
  ref : String
  authorRef : String
  author : Author
  displayName : String
  date : Int
  editedAt : Option Int
  replyRef : Option String
  replyUnavailable : Bool
  text : String
  forwarded : Option Forwarded
  deriving DecidableEq

inductive Disposition where
  | included
  | nonText
  | invalidText
  | unavailable
  | outsidePeriod
  deriving DecidableEq

def Disposition.text : Disposition → String
  | .included => "included"
  | .nonText => "nonText"
  | .invalidText => "invalidText"
  | .unavailable => "unavailable"
  | .outsidePeriod => "outsidePeriod"

structure Source where
  messageId : Int
  date : Option Int
  disposition : Disposition
  messageRef : Option String := none
  authorId : Option String := none
  replyToMessageId : Option Int := none
  deriving DecidableEq

structure Excluded where
  nonText : Int := 0
  invalidText : Int := 0
  unavailable : Int := 0
  outsidePeriod : Int := 0
  deriving DecidableEq

structure Coverage where
  oldestExaminedDate : Option Int
  newestExaminedDate : Option Int
  traversalComplete : Bool
  undatedEntries : Int
  pages : Int
  deriving DecidableEq

structure Page where
  fromDate : Int
  toDate : Int
  messages : List Message
  cursor : Option String
  hasMore : Bool
  status : Status
  coverage : Coverage
  excluded : Excluded
  deriving DecidableEq

structure TaskPage where
  page : Page
  sources : List Source
  beforeCheckpoint : Checkpoint
  nextCheckpoint : Checkpoint
  deriving DecidableEq

structure ObservedSource where
  workspaceId : String
  peerId : String
  deriving DecidableEq

structure Intent where
  taskId : String
  accountId : String
  chatId : String
  requesterId : String
  primaryMessageId : Int
  fromDate : Int
  toDate : Int
  timezone : String
  objective : String
  source : Option ObservedSource
  deriving DecidableEq

/-- The chat that is read. -/
def Intent.sourcePeerId (i : Intent) : String := (i.source.map ObservedSource.peerId).getD i.chatId

/-! Their texts. -/

/-- The decimal digits of a number, before those in hand. -/
def natChars : Nat → Nat → List Char → List Char
  | 0,_,done => done
  | fuel + 1,n,done =>
    if n < 10 then Char.ofNat (48 + n) :: done else natChars fuel (n / 10) (Char.ofNat (48 + n % 10) :: done)

/-- Whole numbers are all these records hold. -/
def numberText (q : Rat) : String :=
  String.ofList (if q.num < 0 then '-' :: natChars (q.num.natAbs + 1) q.num.natAbs [] else natChars (q.num.natAbs + 1) q.num.natAbs [])

def int (n : Int) : Json := .num (.finite n)

def nullable {α : Type} (f : α → Json) : Option α → Json
  | none => .null
  | some a => f a

/-- A property that is left out when there is nothing to put there. -/
def optional {α : Type} (key : String) (f : α → Json) (value : Option α) : List (String × Json) :=
  (value.map fun a => (key,f a)).toList

def Checkpoint.json (c : Checkpoint) : Json := .obj [("schema",.str "self-history-task-checkpoint-v1"),
  ("accountId",.str c.accountId),("chatId",.str c.chatId),("fromDate",int c.fromDate),("toDate",int c.toDate),
  ("offsetId",int c.offsetId),("lastDate",int c.lastDate),("oldestDate",nullable int c.oldestDate),
  ("newestDate",nullable int c.newestDate),("undated",int c.undated),("pages",int c.pages),("inexact",.bool c.inexact),
  ("upperBoundMessageId",nullable int c.upperBoundMessageId),("status",.str c.status.text)]

def Forwarded.json (f : Forwarded) : Json := .obj [("originalDate",int f.originalDate),
  ("sourceName",nullable .str f.sourceName),("interpretation",.str "quoted-source-not-request")]

def Message.json (m : Message) : Json := .obj ([("ref",.str m.ref),("authorRef",.str m.authorRef),
  ("author",.str m.author.text),("displayName",.str m.displayName),("date",int m.date),("editedAt",nullable int m.editedAt),
  ("replyRef",nullable .str m.replyRef),("replyUnavailable",.bool m.replyUnavailable),("text",.str m.text)] ++
  optional "forwarded" Forwarded.json m.forwarded)

def Source.json (s : Source) : Json := .obj ([("messageId",int s.messageId),("date",nullable int s.date),
  ("disposition",.str s.disposition.text)] ++ optional "messageRef" .str s.messageRef ++
  optional "authorId" .str s.authorId ++ optional "replyToMessageId" int s.replyToMessageId)

def Coverage.json (c : Coverage) : Json := .obj [("scope",.str "available-history-snapshot"),
  ("oldestExaminedDate",nullable int c.oldestExaminedDate),("newestExaminedDate",nullable int c.newestExaminedDate),
  ("traversalComplete",.bool c.traversalComplete),("undatedEntries",int c.undatedEntries),("pages",int c.pages)]

def Excluded.json (x : Excluded) : Json := .obj [("nonText",int x.nonText),("invalidText",int x.invalidText),
  ("unavailable",int x.unavailable),("outsidePeriod",int x.outsidePeriod)]

def limitations : List String :=
  ["text-only","not-a-full-archive","deleted-or-hidden-content-not-recoverable","edits-may-change-between-pages"]

def Page.json (p : Page) : Json := .obj [("schema",.str "neurobro-self-history-v1"),("fromDate",int p.fromDate),
  ("toDate",int p.toDate),("messages",.arr (p.messages.map Message.json)),("cursor",nullable .str p.cursor),
  ("hasMore",.bool p.hasMore),("status",.str p.status.text),("coverage",p.coverage.json),("excluded",p.excluded.json),
  ("limitations",.arr (limitations.map .str))]

def TaskPage.json (t : TaskPage) : Json := .obj [("page",t.page.json),("sources",.arr (t.sources.map Source.json)),
  ("beforeCheckpoint",t.beforeCheckpoint.json),("nextCheckpoint",t.nextCheckpoint.json)]

/-- How many bytes a value takes when it is written. -/
def byteLength (value : Json) : Nat := (Json.stringify numberText value).utf8ByteSize

end Neurobro.History
