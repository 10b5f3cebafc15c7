import Neurobro.Agent.Text
import Neurobro.Data.Table

/-! Monitoring jobs: records, the checks every text and bound passes, and the alerts
a source change can raise. Strings are sequences of Unicode scalar values; their
lengths are counted in UTF-16 code units, as the source language counts them. -/
namespace Neurobro.Jobs

open Agent (trim)

abbrev Err := String

/-- What the service takes from its platform: the hash behind `digest`, case folding,
date parsing and the two collations. -/
structure Host where
  sha256 : String → String
  toLowerCase : String → String
  isoTime : String → Option String
  localeCompare : String → String → Ordering
  localeCompareEn : String → String → Ordering

structure TaskBinding where
  taskId : String
  intentRevision : Int
  grantId : String
  grantRevision : Int
  deriving DecidableEq

structure ToolContext extends TaskBinding where
  runId : String
  deriving DecidableEq

structure Bound where
  fallback : Int
  max : Int

def pageSizeBound : Bound := ⟨50,100⟩
def maxPagesBound : Bound := ⟨4,16⟩
def maxAlertsBound : Bound := ⟨100,1600⟩
def maxTrackedItemsBound : Bound := ⟨4096,10000⟩

inductive SourceKind where
  | telegram
  | web
  deriving DecidableEq

def SourceKind.text : SourceKind → String
  | .telegram => "telegram"
  | .web => "web"

structure JobSource where
  id : String
  kind : SourceKind
  resource : String
  deriving DecidableEq

structure FilterSpec where
  «include» : Option (List String) := none
  exclude : Option (List String) := none

structure JobFilter where
  «include» : List String
  exclude : List String
  deriving DecidableEq

structure JobLimits where
  pageSize : Nat
  maxPages : Nat
  maxAlerts : Nat
  maxTrackedItems : Nat
  deriving DecidableEq

structure JobSpec where
  id : Option String := none
  name : String
  sources : List JobSource
  filter : Option FilterSpec := none
  pageSize : Option Int := none
  maxPages : Option Int := none
  maxAlerts : Option Int := none
  maxTrackedItems : Option Int := none

inductive ChangeKind where
  | message
  | edit
  | delete
  deriving DecidableEq

structure SourceChange where
  itemId : String
  kind : ChangeKind
  version : String
  observedAt : String
  title : Option String := none
  text : Option String := none
  deriving DecidableEq

structure SourcePage where
  sourceId : String
  changes : List SourceChange
  cursor : Option String := none
  hasMore : Bool
  unavailable : Option Bool := none
  deriving DecidableEq

inductive AlertKind where
  | change (kind : ChangeKind)
  | sourceLost
  | sourceRestored
  deriving DecidableEq

def ChangeKind.text : ChangeKind → String
  | .message => "message"
  | .edit => "edit"
  | .delete => "delete"

def AlertKind.text : AlertKind → String
  | .change kind => kind.text
  | .sourceLost => "source-lost"
  | .sourceRestored => "source-restored"

structure ExcerptMetadata where
  unit : String := "utf16-code-units"
  limit : Nat
  originalLength : Nat
  returnedLength : Nat
  omittedLength : Nat
  truncated : Bool
  deriving DecidableEq

structure Excerpts where
  title : ExcerptMetadata
  text : ExcerptMetadata
  deriving DecidableEq

structure MonitorAlert where
  id : String
  jobId : String
  filterRevision : Nat
  sourceId : String
  resource : String
  itemId : String
  kind : AlertKind
  title : String
  text : String
  observedAt : String
  rank : Nat
  provenance : String := "untrusted-source"
  excerpts : Excerpts
  deriving DecidableEq

structure CapacityBlock where
  requiredTrackedItems : Nat
  reason : String := "tracking-capacity-reached"
  cursorPreserved : Bool := true
  deriving DecidableEq

structure TrackedItem where
  version : String
  fingerprint : String
  matched : Bool
  deleted : Bool
  deriving DecidableEq

inductive SourceStatus where
  | ready
  | catchup
  | lost
  | capacity
  deriving DecidableEq

structure SourceState where
  cursor : Option String := none
  status : SourceStatus := .ready
  lossEpisode : Nat := 0
  bootstrapRevision : Option Nat := none
  items : Table String TrackedItem := ∅
  seen : Table String String := ∅
  capacity : Option CapacityBlock := none

inductive JobState where
  | active
  | cancelled
  deriving DecidableEq

structure JobRecord where
  id : String
  binding : TaskBinding
  name : String
  sources : List JobSource
  filter : JobFilter
  revision : Nat
  version : Nat
  state : JobState
  createdAt : String
  updatedAt : String
  limits : JobLimits
  sourceStates : Table String SourceState
  nextSourceIndex : Nat
  alertLog : List MonitorAlert

/-! ## Canonical texts and digests -/

def arrayText (items : List String) : String := "[" ++ joined "," items ++ "]"

def objectText (fields : List (String × String)) : String :=
  "\x7b" ++ joined "," (fields.map fun f => quote f.1 ++ ":" ++ f.2) ++ "\x7d"

def bindingText (b : TaskBinding) : String :=
  objectText [("taskId",quote b.taskId),("intentRevision",toString b.intentRevision),
    ("grantId",quote b.grantId),("grantRevision",toString b.grantRevision)]

def sourceText (s : JobSource) : String :=
  objectText [("id",quote s.id),("kind",quote s.kind.text),("resource",quote s.resource)]

def filterText (f : JobFilter) : String :=
  objectText [("include",stringArray f.include),("exclude",stringArray f.exclude)]

def limitsText (l : JobLimits) : String :=
  objectText [("pageSize",toString l.pageSize),("maxPages",toString l.maxPages),
    ("maxAlerts",toString l.maxAlerts),("maxTrackedItems",toString l.maxTrackedItems)]

/-- The hash of a value, given by its JSON text. -/
def Host.digest (h : Host) (text : String) : String := h.sha256 text

def Host.key (h : Host) (value : String) : String := h.digest (quote value)

/-! ## Checks -/

/-- Control characters other than tab and line feed. -/
def isControl (c : Char) : Bool := c.toNat ≤ 8 || (11 ≤ c.toNat && c.toNat ≤ 31)

def string (value label : String) (max : Nat := 256) : Except Err String :=
  if trim value = "" || utf16Length value > max || value.toList.any isControl then .error ("Invalid " ++ label)
  else .ok value

def maxSafeInteger : Int := 9007199254740991

def isRevision (n : Int) : Bool := 1 ≤ n && n ≤ maxSafeInteger

def bounded (value : Option Int) (bound : Bound) : Except Err Nat :=
  let n := value.getD bound.fallback
  if n < 1 || n > bound.max then .error "Invalid bound" else .ok n.toNat

def binding (context : ToolContext) : Except Err TaskBinding := do
  let _ ← string context.taskId "taskId"
  let _ ← string context.grantId "grantId"
  let _ ← string context.runId "runId"
  if !isRevision context.intentRevision || !isRevision context.grantRevision then
    throw "Invalid context revision"
  .ok context.toTaskBinding

def checkSource (s : JobSource) : Except Err JobSource := do
  let id ← string s.id "source id"
  let resource ← string s.resource "source resource" 2048
  .ok { s with id, resource }

def sources (h : Host) (input : List JobSource) : Except Err (List JobSource) := do
  if input.length < 1 || input.length > 16 then throw "Invalid source set"
  let result ← input.mapM checkSource
  if !decide (result.map JobSource.id).Nodup ||
      !decide (result.map fun s => s.kind.text ++ ":" ++ s.resource).Nodup then throw "Duplicate source"
  .ok (result.mergeSort fun a b => (h.localeCompareEn a.id b.id).isLE)

def checkTerm (h : Host) (term : String) : Except Err String := do
  .ok (h.toLowerCase (trim (← string term "filter term" 128)))

def terms (h : Host) : Option (List String) → Except Err (List String)
  | none => .ok []
  | some input => do
    if input.length > 32 then throw "Invalid filter terms"
    let checked ← input.mapM (checkTerm h)
    .ok (checked.eraseDups.mergeSort fun a b => unitsLe (utf16Units a) (utf16Units b))

def filter (h : Host) (input : Option FilterSpec) : Except Err JobFilter := do
  let included ← terms h (input.bind FilterSpec.include)
  let excluded ← terms h (input.bind FilterSpec.exclude)
  .ok ⟨included,excluded⟩

/-! ## Matching and alerts -/

def includes (needle : List Char) : List Char → Bool
  | [] => needle.isEmpty
  | c :: cs => needle.isPrefixOf (c :: cs) || includes needle cs

def contains (text term : String) : Bool := includes term.toList text.toList

def «matches» (h : Host) (f : JobFilter) (title text : String) : Bool :=
  let haystack := h.toLowerCase (title ++ "\n" ++ text)
  (f.include.isEmpty || f.include.any (contains haystack)) && !f.exclude.any (contains haystack)

def rank (h : Host) (f : JobFilter) (title text : String) : Nat :=
  let t := h.toLowerCase title
  let body := h.toLowerCase text
  f.include.foldl (fun n term =>
    n + (if contains t term then 2 else 0) + (if contains body term then 1 else 0)) 0

/-- The longest start made of whole characters: a surrogate pair is never cut. -/
def wholeChars : Nat → List Char → List Char
  | _,[] => []
  | room,c :: cs =>
    if (utf16 c).length ≤ room then c :: wholeChars (room - (utf16 c).length) cs else []

def excerpt (value : String) (limit : Nat) : String × ExcerptMetadata :=
  let returned := String.ofList (wholeChars limit value.toList)
  (returned,{
    limit
    originalLength := utf16Length value
    returnedLength := utf16Length returned
    omittedLength := utf16Length value - utf16Length returned
    truncated := utf16Length returned < utf16Length value })

def titleLimit : Nat := 512
def textLimit : Nat := 16384

def excerptsOf (title text : String) : Excerpts :=
  ⟨(excerpt title titleLimit).2,(excerpt text textLimit).2⟩

def alertId (h : Host) (job : JobRecord) (source : JobSource) (itemId : String) (kind : AlertKind)
    (version : String) : String :=
  h.digest (arrayText [bindingText job.binding,quote job.id,toString job.revision,quote source.id,
    quote source.resource,quote itemId,quote kind.text,quote version])

def alert (h : Host) (job : JobRecord) (source : JobSource) (itemId : String) (kind : AlertKind)
    (version observedAt title text : String) (excerpts : Excerpts) (score : Nat) : MonitorAlert where
  id := alertId h job source itemId kind version
  jobId := job.id
  filterRevision := job.revision
  sourceId := source.id
  resource := source.resource
  itemId
  kind
  title
  text
  observedAt
  rank := score
  excerpts

/-- An alert about the source itself, with the excerpts and the rank of its own words. -/
def statusAlert (h : Host) (job : JobRecord) (source : JobSource) (kind : AlertKind) (episode : Nat)
    (now title : String) : MonitorAlert :=
  alert h job source "" kind (toString episode) now title "" (excerptsOf title "") (rank h job.filter title "")

/-- Higher rank first, then the later observation, then the identifier. -/
def alertOrder (h : Host) (a b : MonitorAlert) : Ordering :=
  (compare b.rank a.rank).then
    ((h.localeCompare b.observedAt a.observedAt).then (h.localeCompare a.id b.id))

def sortAlerts (h : Host) (alerts : List MonitorAlert) : List MonitorAlert :=
  alerts.mergeSort fun a b => (alertOrder h a b).isLE

theorem sortAlerts_perm (h : Host) (alerts : List MonitorAlert) : (sortAlerts h alerts).Perm alerts :=
  List.mergeSort_perm alerts _

/-- A platform that keeps every text as it is. -/
def Host.plain : Host where
  sha256 := id
  toLowerCase := id
  isoTime := some
  localeCompare := compareUnits
  localeCompareEn := compareUnits
where
  compareUnits (a b : String) : Ordering :=
    if a = b then .eq else if unitsLe (utf16Units a) (utf16Units b) then .lt else .gt

end Neurobro.Jobs
