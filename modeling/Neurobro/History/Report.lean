import Neurobro.History.Records

/-! The text of a final report: the body as it was chosen, what was covered, and the
messages that both are cut into. -/
namespace Neurobro.History

open Telegram

inductive GapKind where
  | inaccessibleHistory
  | inexactHistory
  | undatedEntries
  | nonText
  | invalidText
  | unavailable
  | outsidePeriod
  deriving DecidableEq

def GapKind.text : GapKind → String
  | .inaccessibleHistory => "inaccessible-history"
  | .inexactHistory => "inexact-history"
  | .undatedEntries => "undated-entries"
  | .nonText => "nonText"
  | .invalidText => "invalidText"
  | .unavailable => "unavailable"
  | .outsidePeriod => "outsidePeriod"

def gapLabels : GapKind → String
  | .inaccessibleHistory => "история недоступна"
  | .inexactHistory => "неполная история"
  | .undatedEntries => "без даты"
  | .nonText => "нет текста"
  | .invalidText => "некорректный текст"
  | .unavailable => "недоступные записи"
  | .outsidePeriod => "вне периода"

structure Gap where
  kind : GapKind
  count : Option Int := none
  deriving DecidableEq

structure ReadyCoverage where
  committedPages : Int
  coveredPages : Int
  sourceRows : Int
  coveredRows : Int
  readStatus : Status
  readTraversalComplete : Bool
  excluded : Excluded
  deriving DecidableEq

/-- An analysis that covers everything that was read. -/
structure Readiness where
  sourceHead : String
  expectedHead : String
  rootRef : Option String
  coverage : ReadyCoverage
  gaps : List Gap
  deriving DecidableEq

inductive PartKind where
  | combined
  | body
  | coverage
  deriving DecidableEq

def PartKind.text : PartKind → String
  | .combined => "combined"
  | .body => "body"
  | .coverage => "coverage"

/-- One message of the report, counted from one. -/
structure Part where
  index : Nat
  kind : PartKind
  text : String
  textHash : String
  deriving DecidableEq

structure Prepared where
  text : String
  textHash : String
  parts : List Part
  deriving DecidableEq

namespace Report

def maxParts : Nat := 16

def maxReportBytes : Nat := 32768

def fail {α : Type} (code : String) : Except String α := .error ("STANDING_HISTORY_TASK_DELIVERY_" ++ code)

def digest (text : String) : Bool := hexRef "" 64 text

def count (n maximum : Int) : Bool := decide (0 ≤ n ∧ n ≤ maximum)

def validText (text : String) (maximum : Nat) : Bool :=
  decide (utf16Length text ≤ maximum) && !blank text && !hasNul text

def excludedCounts (x : Excluded) : Bool :=
  [x.nonText,x.invalidText,x.unavailable,x.outsidePeriod].all fun n => count n 102400

def readyCopy (r : Readiness) : Except String Readiness :=
  if !digest r.sourceHead || !digest r.expectedHead || r.rootRef.any fun ref => !hexRef "hnode_" 48 ref then fail "INPUT"
  else if !count r.coverage.committedPages 1024 || r.coverage.coveredPages ≠ r.coverage.committedPages ||
      !count r.coverage.sourceRows 102400 || r.coverage.coveredRows ≠ r.coverage.sourceRows || r.coverage.readStatus = .more then
    fail "COVERAGE"
  else if !excludedCounts r.coverage.excluded || decide (7 < r.gaps.length) ||
      (r.gaps.any fun g => g.count.any fun n => !count n 102400 || n = 0) || !decide (r.gaps.map Gap.kind).Nodup then fail "INPUT"
  else .ok r

/-! The days of the calendar. -/

def digits (width : Nat) (n : Int) : String :=
  let text := (numberText n).toList
  String.ofList (List.replicate (width - text.length) '0' ++ text)

/-- The date of a day counted from the first of January 1970. -/
def civil (day : Int) : Int × Int × Int :=
  let z := day + 719468
  let era := z / 146097
  let doe := z - era * 146097
  let yoe := (doe - doe / 1460 + doe / 36524 - doe / 146096) / 365
  let doy := doe - (365 * yoe + yoe / 4 - yoe / 100)
  let mp := (5 * doy + 2) / 153
  let month := if mp < 10 then mp + 3 else mp - 9
  (yoe + era * 400 + (if month ≤ 2 then 1 else 0),month,doy - (153 * mp + 2) / 5 + 1)

def toISOString (seconds : Int) : String :=
  let (year,month,day) := civil (seconds / 86400)
  let rest := seconds % 86400
  digits 4 year ++ "-" ++ digits 2 month ++ "-" ++ digits 2 day ++ "T" ++ digits 2 (rest / 3600) ++ ":" ++
    digits 2 (rest / 60 % 60) ++ ":" ++ digits 2 (rest % 60) ++ ".000Z"

example : toISOString 1709210096 = "2024-02-29T12:34:56.000Z" := by decide +kernel

/-! Cutting a body into messages. -/

/-- Everything up to the end of the last occurrence of a delimiter. -/
def throughLast (delimiter : List Char) : List Char → Option (List Char)
  | [] => none
  | c :: rest =>
    match throughLast delimiter rest with
    | some kept => some (c :: kept)
    | none => if delimiter.isPrefixOf (c :: rest) then some delimiter else none

/-- The chunk is cut back to a paragraph or a line, when little is lost by it. -/
def cutBack (chunk : List Char) : List Char :=
  ((["\n\n","\n"].filterMap fun delimiter => throughLast delimiter.toList chunk).find? fun kept =>
    decide (3072 ≤ bytes kept)).getD chunk

/-- What comes before the last visible character. -/
def beforeLastInk (chunk : List Char) : Option (List Char) :=
  match chunk.reverse.dropWhile Agent.isSpace with
  | [] => none
  | _ :: rest => some rest.reverse

/-- A rest that is all blank is kept together with the last visible character. -/
def spareTail (remaining chunk : List Char) : Except String (List Char) :=
  if (remaining.drop chunk.length).all Agent.isSpace then
    match beforeLastInk chunk with
    | none => fail "INPUT"
    | some kept => if kept.isEmpty || decide (4096 < bytes (remaining.drop kept.length)) then fail "INPUT" else .ok kept
  else .ok chunk

/-- No chunk is empty, so that the length of the body is fuel enough. -/
def splitReportBody : Nat → List Char → Except String (List String)
  | 0,_ => fail "INPUT"
  | fuel + 1,remaining => do
    if 4096 < bytes remaining then
      let chunk ← spareTail remaining (cutBack (takeBytes 4096 remaining))
      if validText (String.ofList chunk) 4096 then
        let rest ← splitReportBody fuel (remaining.drop chunk.length)
        .ok (String.ofList chunk :: rest)
      else fail "INPUT"
    else if validText (String.ofList remaining) 4096 then .ok [String.ofList remaining] else fail "INPUT"

/-! The report. -/

def gapText (g : Gap) : String := gapLabels g.kind ++ (g.count.map fun n => ": " ++ numberText n).getD ""

def footer (i : Intent) (r : Readiness) : String :=
  let c := r.coverage
  let gaps := joined "; " (r.gaps.map gapText)
  "Охват: " ++ numberText c.coveredRows ++ "/" ++ numberText c.sourceRows ++ " записей, " ++ numberText c.coveredPages ++ "/" ++
    numberText c.committedPages ++ " страниц; " ++ toISOString i.fromDate ++ " — " ++ toISOString i.toDate ++ " (" ++ i.timezone ++
    ").\nИстория: " ++ (if c.readTraversalComplete then "обход завершён" else "полнота не подтверждена") ++ ". Пробелы: " ++
    (if gaps = "" then "не отмечены" else gaps) ++ ". Сводка модели; утверждения не проверены."

def sourceFooter (i : Intent) (r : Readiness) : String :=
  (if i.source.isSome then "Источник: подключённое сообщество (только чтение).\n" else "") ++ footer i r

section Texts
variable (hash : String → String)

def part (index : Nat) (kind : PartKind) (text : String) : Part := ⟨index,kind,text,hash text⟩

/-- The chunks of the body, and the coverage after them. -/
def partsOf (chunks : List String) (closing : String) : List Part :=
  chunks.mapIdx (fun index chunk => part hash (index + 1) .body chunk) ++ [part hash (chunks.length + 1) .coverage closing]

def prepareText (i : Intent) (readiness : Readiness) (body : String) : Except String Prepared := do
  let r ← readyCopy readiness
  if !validText body maxReportBytes || decide (maxReportBytes < body.utf8ByteSize) then fail "INPUT"
  else if 4096 < (footer i r).utf8ByteSize then fail "OVERFLOW"
  else if 4096 < (sourceFooter i r).utf8ByteSize then fail "OVERFLOW"
  else
    let chunks ← splitReportBody (body.length + 1) body.toList
    let text := body ++ "\n\n" ++ sourceFooter i r
    let parts := if text.utf8ByteSize ≤ 4096 then [part hash 1 .combined text] else partsOf hash chunks (sourceFooter i r)
    if maxParts < parts.length then fail "OVERFLOW" else .ok ⟨text,hash text,parts⟩

end Texts

end Report

/-! What is written down of a report before any of it is sent. -/

inductive Schema where
  | v1
  | v2
  | v3
  deriving DecidableEq

def Schema.text : Schema → String
  | .v1 => "standing-history-task-delivery-v1"
  | .v2 => "standing-history-task-delivery-v2"
  | .v3 => "standing-history-task-delivery-v3"

/-- As it is written, a report of several parts has no copy of its text. -/
structure StoredDescriptor where
  schema : Schema
  taskRef : String
  sourceHead : String
  analysisHead : String
  rootRef : String
  rootHash : String
  coverage : ReadyCoverage
  gaps : List Gap
  body : Option String
  text : Option String
  textHash : Option String
  parts : Option (List Part)
  deriving DecidableEq

structure Descriptor where
  schema : Schema
  taskRef : String
  sourceHead : String
  analysisHead : String
  rootRef : String
  rootHash : String
  coverage : ReadyCoverage
  gaps : List Gap
  body : String
  text : String
  textHash : String
  parts : Option (List Part)
  deriving DecidableEq

namespace Descriptor

open Report

/-- The number of parts fits the schema, and only a single one is not listed. -/
def partsFit (schema : Schema) (listed : Option (List Part)) (prepared : List Part) : Bool :=
  match schema with
  | .v1 => decide (prepared.length = 1) && listed.isNone
  | .v2 => decide (prepared.length = 2) && decide (listed = some prepared)
  | .v3 => decide (3 ≤ prepared.length) && decide (listed = some prepared)

def copy (hash : String → String) (i : Intent) (d : Descriptor) : Except String Descriptor := do
  let r ← readyCopy ⟨d.sourceHead,d.analysisHead,some d.rootRef,d.coverage,d.gaps⟩
  if d.taskRef ≠ i.taskId || !digest d.rootHash || !validText d.body maxReportBytes then fail "INPUT"
  else
    let prepared ← prepareText hash i r d.body
    if d.text ≠ prepared.text || d.textHash ≠ prepared.textHash || d.rootHash ≠ d.analysisHead ||
        !partsFit d.schema d.parts prepared.parts then fail "INPUT"
    else .ok d

def persisted (d : Descriptor) : StoredDescriptor :=
  { d with
    body := if d.schema = .v1 then some d.body else none
    text := if d.schema = .v1 then some d.text else none
    textHash := if d.schema = .v1 then some d.textHash else none }

def stored (hash : String → String) (i : Intent) (d : StoredDescriptor) : Except String Descriptor :=
  if d.schema = .v1 then
    match d.body,d.text,d.textHash with
    | some body,some text,some textHash => copy hash i { d with body := body, text := text, textHash := textHash }
    | _,_,_ => fail "INPUT"
  else if d.body.isSome || d.text.isSome || d.textHash.isSome then fail "INPUT"
  else
    match d.parts with
    | none => fail "INPUT"
    | some parts =>
      if decide (maxParts < parts.length) || decide (parts.length < 2) ||
          parts.any fun part => !validText part.text 4096 || decide (4096 < part.text.utf8ByteSize) then fail "INPUT"
      else
        let body := parts.dropLast.foldl (fun text part => text ++ part.text) ""
        let text := body ++ "\n\n" ++ (parts.getLast?.map Part.text).getD ""
        copy hash i { d with body := body, text := text, textHash := hash text }

/-- The messages of a report, in order. -/
def messages (hash : String → String) (d : Descriptor) : List Part := d.parts.getD [part hash 1 .combined d.text]

end Descriptor

/-! As they are hashed, with their keys in order. -/

def Excluded.canonical (x : Excluded) : Json := .obj [("invalidText",int x.invalidText),("nonText",int x.nonText),
  ("outsidePeriod",int x.outsidePeriod),("unavailable",int x.unavailable)]

def ReadyCoverage.canonical (c : ReadyCoverage) : Json := .obj [("committedPages",int c.committedPages),
  ("coveredPages",int c.coveredPages),("coveredRows",int c.coveredRows),("excluded",c.excluded.canonical),
  ("readStatus",.str c.readStatus.text),("readTraversalComplete",.bool c.readTraversalComplete),("sourceRows",int c.sourceRows)]

def Gap.canonical (g : Gap) : Json := .obj (optional "count" int g.count ++ [("kind",.str g.kind.text)])

def Part.canonical (p : Part) : Json := .obj [("index",int p.index),("kind",.str p.kind.text),("text",.str p.text),
  ("textHash",.str p.textHash)]

def StoredDescriptor.canonical (d : StoredDescriptor) : Json := .obj ([("analysisHead",.str d.analysisHead)] ++
  optional "body" .str d.body ++ [("coverage",d.coverage.canonical),("gaps",.arr (d.gaps.map Gap.canonical))] ++
  optional "parts" (fun parts => .arr (parts.map Part.canonical)) d.parts ++ [("rootHash",.str d.rootHash),
  ("rootRef",.str d.rootRef),("schema",.str d.schema.text),("sourceHead",.str d.sourceHead),("taskRef",.str d.taskRef)] ++
  optional "text" .str d.text ++ optional "textHash" .str d.textHash)

def ObservedSource.canonical (s : ObservedSource) : Json := .obj [("kind",.str "observed-source"),("peerId",.str s.peerId),
  ("sourceRef",.str "community"),("workspaceId",.str s.workspaceId)]

def Intent.canonical (i : Intent) : Json := .obj ([("accountId",.str i.accountId),("chatId",.str i.chatId),
  ("fromDate",int i.fromDate),("objective",.str i.objective),("primaryMessageId",int i.primaryMessageId),
  ("requesterId",.str i.requesterId),("schema",.str "standing-history-task-v1")] ++
  optional "source" ObservedSource.canonical i.source ++ [("taskId",.str i.taskId),("timezone",.str i.timezone),("toDate",int i.toDate)])

def canonicalHash (hash : String → String) (value : Json) : String := hash (Json.stringify numberText value)

def Descriptor.hash (hash : String → String) (d : Descriptor) : String := canonicalHash hash d.persisted.canonical

end Neurobro.History
