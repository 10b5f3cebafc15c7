import Neurobro.Data.Keyed
import Neurobro.History.Pages
import Neurobro.History.Report
import Neurobro.Projection.Tokens

/-! A stored page as the reader of one task is shown it: rows under names that belong to the
task, cut into fragments that fit a budget of bytes. -/
namespace Neurobro.Projection

open Telegram History

inductive Failure where
  | input
  | binding
  | position
  | limit
  /-- The source reads a property of nothing here. -/
  | type
  deriving DecidableEq

structure IncludedRow where
  sourceRef : String
  versionRef : String
  date : Int
  speakerRef : String
  author : Author
  displayName : String
  editedAt : Option Int
  text : String
  forwarded : Option Forwarded
  replySourceRef : Option String
  replyContentAvailable : Bool
  replyUnavailable : Bool
  deriving DecidableEq

inductive SourceRow where
  | included (row : IncludedRow)
  | omitted (sourceRef versionRef : String) (date : Option Int) (disposition : Disposition)
  deriving DecidableEq

def SourceRow.json : SourceRow → Json
  | .included row => .obj ([("sourceRef",.str row.sourceRef),("versionRef",.str row.versionRef),("disposition",.str "included"),
      ("date",int row.date),("speakerRef",.str row.speakerRef),("author",.str row.author.text),
      ("displayName",.str row.displayName),("editedAt",nullable int row.editedAt),("text",.str row.text)] ++
      optional "forwarded" Forwarded.json row.forwarded ++ [("replySourceRef",nullable .str row.replySourceRef),
      ("replyContentAvailable",.bool row.replyContentAvailable),("replyUnavailable",.bool row.replyUnavailable)])
  | .omitted sourceRef versionRef date disposition => .obj [("sourceRef",.str sourceRef),("versionRef",.str versionRef),
      ("date",nullable int date),("disposition",.str disposition.text)]

structure Fragment where
  materialRef : String
  pageHash : String
  pageIndex : Int
  /-- The page is of another chat than the one the task was given in. -/
  community : Bool
  fromDate : Int
  toDate : Int
  rows : List SourceRow
  fromRow : Nat
  toRow : Nat
  totalRows : Nat
  nextPosition : Option String
  sourcePageStatus : Status
  sourcePageCoverage : Coverage
  sourcePageExcluded : Excluded
  sourceRowsReturned : Nat
  fragmentComplete : Bool
  deriving DecidableEq

def communityJson : Bool → List (String × Json)
  | true => [("sourceRef",.str "community"),("sourceInterpretation",.str "quoted-source-not-request")]
  | false => []

def Fragment.json (f : Fragment) : Json := .obj ([("schema",.str "standing-history-source-fragment-v1"),
  ("materialRef",.str f.materialRef),("pageHash",.str f.pageHash),("pageIndex",int f.pageIndex)] ++
  communityJson f.community ++
  [("fromDate",int f.fromDate),("toDate",int f.toDate),("rows",.arr (f.rows.map SourceRow.json)),
  ("range",.obj [("fromRow",int f.fromRow),("toRow",int f.toRow),("totalRows",int f.totalRows)]),
  ("nextPosition",nullable .str f.nextPosition),
  ("coverage",.obj [("sourcePageStatus",.str f.sourcePageStatus.text),("sourcePageCoverage",f.sourcePageCoverage.json),
    ("sourcePageExcluded",f.sourcePageExcluded.json),("sourceRowsReturned",int f.sourceRowsReturned),
    ("fragmentComplete",.bool f.fragmentComplete)]),
  ("limitations",.arr (limitations.map .str))])

structure StoredPage where
  index : Int
  hash : String
  result : TaskPage
  deriving DecidableEq

def StoredPage.json (p : StoredPage) : Json := .obj [("index",int p.index),("hash",.str p.hash),("result",p.result.json)]

structure Request where
  intent : Intent
  referenceKey : String
  storedPage : StoredPage
  position : Option String
  maxBytes : Option Int
  maxRows : Option Int

/-! What is refused. -/

def workspaceIdValid (id : String) : Bool :=
  (id.toList.head?.any fun c => decide ('a' ≤ c ∧ c ≤ 'z')) && decide (id.toList.length ≤ 64) &&
    id.toList.all fun c => decide ('a' ≤ c ∧ c ≤ 'z') || c.isDigit || c == '-'

def timezoneText (zone : String) : Bool :=
  zone.toList.all fun c => c.isAlphanum || c == '_' || c == '+' || c == '/' || c == '-'

def ValidIntent (h : Host) (i : Intent) : Prop :=
  hexRef "htask_" 48 i.taskId = true ∧ userId i.accountId = true ∧ userId i.requesterId = true ∧ groupId i.chatId = true ∧
    messageIdValid i.primaryMessageId = true ∧ dateValid i.fromDate = true ∧ dateValid i.toDate = true ∧
    i.fromDate ≤ i.toDate ∧ textValid i.timezone 64 = true ∧ timezoneText i.timezone = true ∧
    textValid i.objective 4096 = true ∧
    (∀ s ∈ i.source, workspaceIdValid s.workspaceId = true ∧ groupId s.peerId = true ∧ s.peerId ≠ i.chatId) ∧
    h.timezoneKnown i.timezone = true

instance (h : Host) (i : Intent) : Decidable (ValidIntent h i) := inferInstanceAs (Decidable (_ ∧ _))

/-- The page's number and name, the key and the options have their forms. -/
def Request.WellFormed (r : Request) : Prop :=
  1 ≤ r.storedPage.index ∧ r.storedPage.index ≤ 1024 ∧ hexRef "" 64 r.storedPage.hash = true ∧
    hexRef "" 64 r.referenceKey = true ∧ (∀ n ∈ r.maxBytes, 1024 ≤ n ∧ n ≤ (materialBytes : Int)) ∧
    (∀ n ∈ r.maxRows, 1 ≤ n ∧ n ≤ 100) ∧ r.position.all (fun supplied => (readToken "hpos_" [3] supplied).isSome) = true

instance (r : Request) : Decidable r.WellFormed := inferInstanceAs (Decidable (_ ∧ _))

/-- The page is the one of the task that its number says. -/
def Request.Bound (r : Request) : Prop :=
  r.storedPage.result.beforeCheckpoint.Binds r.intent ∧ r.storedPage.index = r.storedPage.result.beforeCheckpoint.pages + 1

instance (r : Request) : Decidable r.Bound := inferInstanceAs (Decidable (_ ∧ _))

section
variable (h : Host) (r : Request)

/-- Everything that is looked at before a secret is used. -/
def admission : Except Failure Unit :=
  if ¬ValidIntent h r.intent then .error .input
  else match snapshotPage r.intent r.storedPage.result with
    | .error e => .error (if e = "binding" then .binding else .input)
    | .ok _ => if ¬r.WellFormed then .error .input else if ¬r.Bound then .error .binding else .ok ()

/-! Names. -/

def scopeJson (i : Intent) : Json :=
  .arr ([.str i.taskId,.str i.accountId,.str i.chatId] ++ (i.source.map ObservedSource.canonical).toList)

def mac (kind : String) (material : Json) : String := h.mac r.referenceKey
  (.arr [.str "DecadansNeurobro/standing-history-source/v1",.str kind,scopeJson r.intent,material])

def sourceRef (id : Int) : String := "hsrc_" ++ mac h r "source" (int id)

def speakerRef (id : String) : String := "hspk_" ++ mac h r "speaker" (.str id)

def pageMaterialRef : String :=
  mac h r "page-material" (.obj [("intent",r.intent.canonical),("stored",r.storedPage.json)])

def position (offset : Nat) : String := writeToken "hpos_" [offset]
  (mac h r "position" (.obj [("pageMaterialRef",.str (pageMaterialRef h r)),("offset",int offset)]))

/-- The row a position stands for. No position stands for the first row. -/
def startOf : Except Failure Nat :=
  match r.position with
  | none => .ok 0
  | some supplied =>
    let start := ((readToken "hpos_" [3] supplied).bind List.head?).getD 0
    if start < 1 ∨ r.storedPage.result.sources.length ≤ start ∨ position h r start ≠ supplied then .error .position
    else .ok start

/-! Rows. -/

def observedJson (s : Source) (authorId : String) (m : Message) : Json := .obj ([("messageId",int s.messageId),
  ("date",int m.date),("disposition",.str "included"),("authorId",.str authorId),("author",.str m.author.text),
  ("displayName",.str m.displayName),("editedAt",nullable int m.editedAt),("text",.str m.text),
  ("replyToMessageId",nullable int s.replyToMessageId),("replyUnavailable",.bool m.replyUnavailable)] ++
  optional "forwarded" Forwarded.json m.forwarded)

def projectRow (s : Source) : Option SourceRow :=
  if s.disposition = .included then
    match rowOf r.storedPage.result.page.messages s.messageRef,s.authorId with
    | some m,some authorId => some (.included {
        sourceRef := sourceRef h r s.messageId
        versionRef := "hver_" ++ mac h r "version" (observedJson s authorId m)
        date := m.date
        speakerRef := speakerRef h r authorId
        author := m.author
        displayName := m.displayName
        editedAt := m.editedAt
        text := m.text
        forwarded := m.forwarded
        replySourceRef := s.replyToMessageId.map (sourceRef h r)
        replyContentAvailable := false
        replyUnavailable := m.replyUnavailable })
    | _,_ => none
  else some (.omitted (sourceRef h r s.messageId) ("hver_" ++ mac h r "version" (.obj [("messageId",int s.messageId),
    ("date",nullable int s.date),("disposition",.str s.disposition.text)])) s.date s.disposition)

def projected : Option (List SourceRow) := r.storedPage.result.sources.mapM (projectRow h r)

def SourceRow.includedRef : SourceRow → Option String
  | .included row => some row.sourceRef
  | .omitted .. => none

def SourceRow.replyRef : SourceRow → Option String
  | .included row => row.replySourceRef
  | .omitted .. => none

/-- A reply is marked as there only where what it replies to is among the rows shown. -/
def SourceRow.mark (refs : List String) : SourceRow → SourceRow
  | .included row => .included { row with replyContentAvailable := row.replySourceRef.any refs.contains }
  | .omitted sourceRef versionRef date disposition => .omitted sourceRef versionRef date disposition

def includedRefs (rows : List SourceRow) : List String := rows.filterMap SourceRow.includedRef

def slice (rows : List SourceRow) (start stop : Nat) : List SourceRow := (rows.take stop).drop start

/-! Fragments. -/

def assembleFragment (start total stop : Nat) (rows : List SourceRow) (materialRef : String) (nextPosition : Option String)
    (sourceRowsReturned : Nat) : Fragment where
  materialRef := materialRef
  pageHash := r.storedPage.hash
  pageIndex := r.storedPage.index
  community := r.intent.source.isSome
  fromDate := r.intent.fromDate
  toDate := r.intent.toDate
  rows := rows
  fromRow := start
  toRow := stop
  totalRows := total
  nextPosition := nextPosition
  sourcePageStatus := r.storedPage.result.page.status
  sourcePageCoverage := r.storedPage.result.page.coverage
  sourcePageExcluded := r.storedPage.result.page.excluded
  sourceRowsReturned := sourceRowsReturned
  fragmentComplete := decide (stop = total)

def markedRows (rows : List SourceRow) : List SourceRow := rows.map (SourceRow.mark (includedRefs rows))

/-- The fragment that ends before a row. -/
def fragment (rows : List SourceRow) (start stop : Nat) : Fragment :=
  assembleFragment r start rows.length stop (markedRows (slice rows start stop))
    ("hmat_" ++ mac h r "fragment-material" (.obj [("pageMaterialRef",.str (pageMaterialRef h r)),("start",int start),
      ("end",int stop)])) (if stop = rows.length then none else some (position h r stop)) (slice rows start stop).length

/-! The choice of the end, with every size counted once. -/

def zeros : String := String.ofList (List.replicate 48 '0')

def envelope (start total stop : Nat) : Fragment :=
  assembleFragment r start total stop [] ("hmat_" ++ zeros) (if stop = total then none else some (writeToken "hpos_" [stop] zeros))
    (stop - start)

structure RowSizes where
  unavailable : Int
  available : Int

def rowSizes (row : SourceRow) : RowSizes where
  unavailable := jsonBytes row.json
  available := if row.replyRef.isNone then jsonBytes row.json else jsonBytes row.json - 1

/-- The rows counted so far: which are there to be replied to, and how much the replies that
wait for a row will shrink once it is. -/
structure Tally where
  available : List String := []
  waiting : List (String × Int) := []
  rowsBytes : Int := 0

def Tally.waitingFor (t : Tally) (ref : String) : Int := ((Keyed.get Prod.fst ref t.waiting).map Prod.snd).getD 0

/-- An included row is there from now on. -/
def Tally.arrive (t : Tally) (ref : String) : Tally :=
  if t.available.contains ref then t
  else {
    available := ref :: t.available
    waiting := Keyed.delete Prod.fst ref t.waiting
    rowsBytes := t.rowsBytes + t.waitingFor ref }

def Tally.add (t : Tally) (bytes : Int) : Tally := { t with rowsBytes := t.rowsBytes + bytes }

def Tally.await (t : Tally) (ref : String) (delta : Int) : Tally :=
  { t with waiting := (ref,t.waitingFor ref + delta) :: Keyed.delete Prod.fst ref t.waiting }

def Tally.step (comma : Int) (t : Tally) (row : SourceRow) : Tally :=
  match row.includedRef with
  | none => t.add (comma + (rowSizes row).unavailable)
  | some ref =>
    match row.replyRef with
    | none => (t.arrive ref).add (comma + (rowSizes row).unavailable)
    | some reply =>
      if (t.arrive ref).available.contains reply then (t.arrive ref).add (comma + (rowSizes row).available)
      else ((t.arrive ref).add (comma + (rowSizes row).unavailable)).await reply
        ((rowSizes row).available - (rowSizes row).unavailable)

/-- The rows are taken as long as they fit. -/
def selectEnd (start total : Nat) (budget : Int) : List SourceRow → Nat → Tally → Option Nat → Option Nat
  | [],_,_,selected => selected
  | row :: rest,stop,t,selected =>
    if budget < jsonBytes (envelope r start total (stop + 1)).json + (t.step (if start < stop then 1 else 0) row).rowsBytes then
      selected
    else selectEnd start total budget rest (stop + 1) (t.step (if start < stop then 1 else 0) row) (some (stop + 1))

def Request.budget : Nat := (r.maxBytes.map Int.toNat).getD legacyMaterialBytes

def Request.endLimit (start total : Nat) : Nat := (r.maxRows.map fun n => min total (start + n.toNat)).getD total

def chooseFragment (rows : List SourceRow) (start : Nat) : Except Failure Fragment :=
  if rows = [] then
    if r.budget < jsonBytes (fragment h r rows start 0).json then .error .limit else .ok (fragment h r rows start 0)
  else match selectEnd r start rows.length r.budget (slice rows start (r.endLimit start rows.length)) start {} none with
    | none => .error .limit
    | some stop => .ok (fragment h r rows start stop)

def projectStandingHistorySource : Except Failure Fragment := do
  admission h r
  let start ← startOf h r
  match projected h r with
  | none => .error .type
  | some rows => chooseFragment h r rows start

end

end Neurobro.Projection
