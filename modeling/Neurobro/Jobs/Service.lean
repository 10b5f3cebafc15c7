import Neurobro.Coop.Process
import Neurobro.Jobs.Reducer

/-! The job service over a store whose save is a compare-and-swap on the version. The
store, the host's check of a context and the source are awaited, so other operations
may run between any two of them. -/
namespace Neurobro.Jobs

open Coop

/-- Which of the optional callbacks are installed. -/
structure Options where
  host : Host
  validateContext : Bool
  source : Bool

abbrev JobKey := String × String

structure State where
  jobs : Table JobKey JobRecord := ∅
  now : String

def JobRecord.key (job : JobRecord) : JobKey := (job.binding.taskId,job.id)

inductive Cmd where
  | save (record : JobRecord) (expectedVersion : Option Nat)

@[reducible] def Cmd.Result : Cmd → Type
  | .save _ _ => Bool

/-- Insert only when nothing is expected, otherwise replace the expected version. -/
def State.save (s : State) (record : JobRecord) (expectedVersion : Option Nat) : Bool × State :=
  if (s.jobs.get record.key).map JobRecord.version = expectedVersion then
    (true,{ s with jobs := s.jobs.put record.key record })
  else (false,s)

def exec : (cmd : Cmd) → State → cmd.Result × State
  | .save record expectedVersion,s => s.save record expectedVersion

/-- `store` is a request on its way to the store or an answer on its way back. -/
inductive Call where
  | store
  | validateContext (context : ToolContext) (sources : List JobSource)
  | read (source : JobSource) (cursor : Option String) (limit : Nat) (checkpoint : String)

@[reducible] def Call.Reply : Call → Type
  | .store | .validateContext _ _ => Except Err Unit
  | .read _ _ _ _ => Except Err SourcePage

@[reducible] def service (_ : Options) : Signature where
  State := State
  Err := Err
  Cmd := Cmd
  Result := Cmd.Result
  exec := exec
  Call := Call
  Reply := Call.Reply
  Shock := String
  shock := fun now s => { s with now }
  restart := id

abbrev M (o : Options) (α : Type) := Async (service o) α

section programs

variable {o : Options} {α : Type}

abbrev orThrow (r : Except Err α) : M o α := @Async.lift (service o) α r

abbrev refuse (e : Err) : M o α := @Async.lift (service o) α (.error e)

def clock : M o String := @Async.look (service o) String State.now

def storeTurn : M o Unit := do
  let answer ← @Async.call (service o) .store
  orThrow answer

/-- The store reads at some instant between the request and the answer. -/
def storeLoad (taskId id : String) : M o (Option JobRecord) := do
  storeTurn
  let found ← @Async.look (service o) _ fun s => s.jobs.get (taskId,id)
  storeTurn
  pure found

def storeSave (record : JobRecord) (expectedVersion : Option Nat) : M o Bool := do
  storeTurn
  let saved ← @Async.act (service o) (.save record expectedVersion)
  storeTurn
  pure saved

def validateContext (context : ToolContext) (sources : List JobSource) : M o Unit :=
  if o.validateContext then do
    let answer ← @Async.call (service o) (.validateContext context sources)
    orThrow answer
  else Async.await (pure ())

def authorize (context : ToolContext) (sources : List JobSource) : M o Unit := do
  let _ ← orThrow (binding context)
  validateContext context sources

/-! ## Loading -/

def mayRebind (o : Options) (old new : TaskBinding) : Bool :=
  o.validateContext && decide (new.intentRevision ≥ old.intentRevision) &&
    (new.grantId ≠ old.grantId || decide (new.grantRevision ≥ old.grantRevision))

def checkLoaded (o : Options) (b : TaskBinding) (id : String) (revision : Option Int) (allowRebind : Bool)
    (found : Option JobRecord) : Except Err JobRecord :=
  match found with
  | none => .error "Job not found"
  | some job =>
    if job.binding.taskId ≠ b.taskId || job.id ≠ id then .error "Job not found"
    else if job.binding ≠ b && !(allowRebind && mayRebind o job.binding b) then .error "Stale job context"
    else if revision.any (· ≠ (job.revision : Int)) then .error "Job revision conflict"
    else .ok job

def load (context : ToolContext) (id : String) (revision : Option Int) (allowRebind : Bool) : M o JobRecord := do
  let _ ← orThrow (string id "job id")
  let b ← orThrow (binding context)
  let found ← storeLoad b.taskId id
  let job ← orThrow (checkLoaded o b id revision allowRebind found)
  Async.await (authorize context job.sources)
  pure job

/-! ## Creation -/

def specLimits (spec : JobSpec) : Except Err JobLimits := do
  let pageSize ← bounded spec.pageSize pageSizeBound
  let maxPages ← bounded spec.maxPages maxPagesBound
  let maxAlerts ← bounded spec.maxAlerts maxAlertsBound
  let maxTrackedItems ← bounded spec.maxTrackedItems maxTrackedItemsBound
  .ok ⟨pageSize,maxPages,maxAlerts,maxTrackedItems⟩

/-- What a specification says, checked. -/
structure CheckedSpec where
  sources : List JobSource
  filter : JobFilter
  name : String
  limits : JobLimits

def CheckedSpec.text (c : CheckedSpec) : String :=
  arrayText [quote c.name,arrayText (c.sources.map sourceText),filterText c.filter,limitsText c.limits]

def checkSpec (h : Host) (spec : JobSpec) : Except Err CheckedSpec := do
  let sourceSet ← sources h spec.sources
  let f ← filter h spec.filter
  let name ← string spec.name "job name"
  let limits ← specLimits spec
  .ok ⟨sourceSet,f,name,limits⟩

def createId (h : Host) (b : TaskBinding) (runId : String) (spec : JobSpec) (checked : CheckedSpec) :
    Except Err String :=
  match spec.id with
  | some id => string id "job id"
  | none => .ok (h.digest (arrayText [bindingText b,quote runId,quote checked.name,
      arrayText (checked.sources.map sourceText),filterText checked.filter,limitsText checked.limits]))

def JobRecord.spec (job : JobRecord) : CheckedSpec := ⟨job.sources,job.filter,job.name,job.limits⟩

def statesOf (h : Host) (sources : List JobSource) (state : JobSource → SourceState) : Table String SourceState :=
  sources.foldl (fun states s => states.put (h.key s.id) (state s)) ∅

def newRecord (h : Host) (id : String) (b : TaskBinding) (checked : CheckedSpec) (now : String) : JobRecord where
  id
  binding := b
  name := checked.name
  sources := checked.sources
  filter := checked.filter
  revision := 1
  version := 1
  state := .active
  createdAt := now
  updatedAt := now
  limits := checked.limits
  sourceStates := statesOf h checked.sources fun _ => {}
  nextSourceIndex := 0
  alertLog := []

def create (context : ToolContext) (spec : JobSpec) : M o JobRecord := do
  let b ← orThrow (binding context)
  let checked ← orThrow (checkSpec o.host spec)
  let id ← orThrow (createId o.host b context.runId spec checked)
  Async.await (authorize context checked.sources)
  match ← storeLoad b.taskId id with
  | some existing =>
    if existing.state ≠ .active || existing.binding ≠ b ||
        o.host.digest existing.spec.text ≠ o.host.digest checked.text then refuse "Job identity conflict"
    else pure existing
  | none => do
    let now ← clock
    let record := newRecord o.host id b checked now
    if ← storeSave record none then pure record else refuse "Job storage conflict"

def inspect (context : ToolContext) (id : String) : M o JobRecord := load context id none false

/-! ## Revision -/

structure JobPatch where
  name : Option String := none
  sources : Option (List JobSource) := none
  filter : Option FilterSpec := none
  pageSize : Option Int := none
  maxPages : Option Int := none
  maxAlerts : Option Int := none
  maxTrackedItems : Option Int := none

def patchLimits (patch : JobPatch) (old : JobLimits) : Except Err JobLimits := do
  let pageSize ← bounded (patch.pageSize.getD old.pageSize) pageSizeBound
  let maxPages ← bounded (patch.maxPages.getD old.maxPages) maxPagesBound
  let maxAlerts ← bounded (patch.maxAlerts.getD old.maxAlerts) maxAlertsBound
  let maxTrackedItems ← bounded (patch.maxTrackedItems.getD old.maxTrackedItems) maxTrackedItemsBound
  .ok ⟨pageSize,maxPages,maxAlerts,maxTrackedItems⟩

/-- A source keeps its state when it stays the same source; a new one starts fresh. -/
def carriedState (h : Host) (job : JobRecord) (revision : Nat) (limits : JobLimits) (s : JobSource) :
    Except Err SourceState :=
  let state := match job.sources.find? (· = s) with
    | some _ => (job.sourceStates.get (h.key s.id)).getD { bootstrapRevision := some revision }
    | none => { bootstrapRevision := some revision }
  if max state.items.size state.seen.size > limits.maxTrackedItems then
    .error "Cannot lower maxTrackedItems below retained dedupe evidence"
  else if state.status = .capacity && state.capacity.any (·.requiredTrackedItems ≤ limits.maxTrackedItems) then
    .ok { state with status := .catchup, capacity := none }
  else .ok state

def carriedStates (h : Host) (job : JobRecord) (revision : Nat) (limits : JobLimits) :
    List JobSource → Except Err (Table String SourceState)
  | sources => sources.foldlM (fun states s => do
      let state ← carriedState h job revision limits s
      .ok (states.put (h.key s.id) state)) ∅

def patchSources (h : Host) (job : JobRecord) (patch : JobPatch) : Except Err (List JobSource) :=
  match patch.sources with
  | none => .ok job.sources
  | some input => sources h input

def patchName (job : JobRecord) (patch : JobPatch) : Except Err String :=
  match patch.name with
  | none => .ok job.name
  | some name => string name "job name"

def patchFilter (h : Host) (job : JobRecord) (patch : JobPatch) : Except Err JobFilter :=
  match patch.filter with
  | none => .ok job.filter
  | some input => filter h (some input)

/-- The next record of a job under a patch. -/
def updatedRecord (h : Host) (job : JobRecord) (context : ToolContext) (nextSources : List JobSource)
    (patch : JobPatch) (now : String) : Except Err JobRecord := do
  let b ← binding context
  let name ← patchName job patch
  let f ← patchFilter h job patch
  let limits ← patchLimits patch job.limits
  let sourceStates ← carriedStates h job (job.revision + 1) limits nextSources
  .ok { job with
    binding := b
    revision := job.revision + 1
    version := job.version + 1
    updatedAt := now
    name
    sources := nextSources
    filter := f
    limits
    sourceStates
    nextSourceIndex := 0 }

def update (context : ToolContext) (id : String) (expectedRevision : Int) (patch : JobPatch) : M o JobRecord := do
  let job ← Async.await (load context id (some expectedRevision) true)
  if job.state ≠ .active then refuse "Job cancelled" else do
    let nextSources ← orThrow (patchSources o.host job patch)
    Async.await (authorize context nextSources)
    let now ← clock
    let next ← orThrow (updatedRecord o.host job context nextSources patch now)
    Async.await (authorize context nextSources)
    if ← storeSave next (some job.version) then pure next else refuse "Job storage conflict"

/-! ## Cancellation -/

def cancelledRecord (job : JobRecord) (context : ToolContext) (now : String) : Except Err JobRecord := do
  let b ← binding context
  .ok { job with
    binding := b
    state := .cancelled
    revision := job.revision + 1
    version := job.version + 1
    updatedAt := now }

def cancel (context : ToolContext) (id : String) (expectedRevision : Int) : M o JobRecord := do
  let job ← Async.await (load context id (some expectedRevision) true)
  if job.state = .cancelled then pure job else do
    let now ← clock
    let next ← orThrow (cancelledRecord job context now)
    Async.await (authorize context next.sources)
    if ← storeSave next (some job.version) then pure next else refuse "Job storage conflict"

/-! ## Polling -/

/-- What a poll carries from page to page. -/
structure Polling where
  next : JobRecord
  alerts : List MonitorAlert
  pagesRead : Nat
  queue : List JobSource
  stopped : Bool := false

/-- Every source once, from the one whose turn it is. -/
def pollQueue (job : JobRecord) : List JobSource :=
  job.sources.rotate (job.nextSourceIndex % job.sources.length)

def Polling.start (job : JobRecord) : Polling := ⟨job,[],0,pollQueue job,false⟩

def Polling.goesOn (p : Polling) : Bool :=
  !p.stopped && !p.queue.isEmpty && p.pagesRead < p.next.limits.maxPages && p.alerts.length < p.next.limits.maxAlerts

def Polling.remaining (p : Polling) : Nat := p.next.limits.maxAlerts - p.alerts.length

def Polling.limit (p : Polling) (previous : SourceState) : Nat :=
  min p.next.limits.pageSize (max 1 (p.remaining - if previous.status = .lost then 1 else 0))

def checkpoint (h : Host) (taskId id : String) (previous : SourceState) : String :=
  match previous.bootstrapRevision with
  | none => h.digest (stringArray [taskId,id])
  | some revision => h.digest (arrayText [quote taskId,quote id,toString revision])

def nextSourceIndex (job : JobRecord) (s : JobSource) : Nat :=
  (job.sources.findIdx (·.id = s.id) + 1) % job.sources.length

/-- One page. More alerts than the host can admit stop the poll before the page is
consumed; with room for one, the restoration of the source is acknowledged first. -/
def Polling.page (h : Host) (p : Polling) (s : JobSource) (previous : SourceState) (page : SourcePage) (now : String) :
    Except Err Polling := do
  if page.changes.length > p.limit previous then throw "Source exceeded requested page bound"
  let p := { p with
    pagesRead := p.pagesRead + 1
    queue := p.queue.tail
    next.nextSourceIndex := nextSourceIndex p.next s }
  let (state,raised) ← collectMonitor h p.next s page now
  if p.alerts.length + raised.length > p.next.limits.maxAlerts then
    let restoration := if p.remaining ≥ 1 then (raised.find? (·.kind = .sourceRestored)).toList else []
    .ok { p with
      alerts := p.alerts ++ restoration
      next.sourceStates := p.next.sourceStates.put (h.key s.id) { previous with status := .catchup }
      stopped := true }
  else .ok { p with
    next.sourceStates := p.next.sourceStates.put (h.key s.id) state
    alerts := p.alerts ++ raised
    queue := if state.status = .catchup then p.queue ++ [s] else p.queue }

def takeLast (n : Nat) (items : List α) : List α := items.drop (items.length - n)

/-- The record a poll saves. -/
def Polling.record (h : Host) (p : Polling) (now : String) : JobRecord :=
  { p.next with
    alertLog := takeLast p.next.limits.maxAlerts (p.next.alertLog ++ sortAlerts h p.alerts)
    version := p.next.version + 1
    updatedAt := now }

def unchanged (version : Nat) (current : Option JobRecord) : Bool :=
  current.any fun job => job.version = version && job.state = .active

def pollPage (context : ToolContext) (id : String) (version : Nat) (p : Polling) : M o Polling :=
  match p.queue with
  | [] => pure p
  | s :: _ => do
    Async.await (authorize context [s])
    let current ← storeLoad context.taskId id
    if !unchanged version current then refuse "Job changed during poll"
    else match p.next.sourceStates.get (o.host.key s.id) with
      | none => refuse "Cannot read properties of undefined (reading 'status')"
      | some previous => do
        let answer ← @Async.call (service o) (.read s previous.cursor (p.limit previous)
          (checkpoint o.host context.taskId id previous))
        let page ← orThrow answer
        let now ← clock
        orThrow (p.page o.host s previous page now)

/-- At most `fuel` pages, which is as many as the job allows. -/
def pollPages (context : ToolContext) (id : String) (version : Nat) : Nat → Polling → M o Polling
  | 0,p => pure p
  | fuel + 1,p =>
    if p.goesOn then do
      let p ← pollPage context id version p
      pollPages context id version fuel p
    else pure p

structure SourceProgress where
  sourceId : String
  resource : String
  status : SourceStatus
  cursor : Option String
  trackedItems : Nat
  trackedVersions : Nat
  maxTrackedItems : Nat
  capacityRemaining : Nat
  reason : Option String
  recovery : Option (String × Nat × Nat)

/-- Bounded model-visible progress. A recovery names its action, the room it needs and
the room there can be. -/
def sourceProgress (job : JobRecord) (s : JobSource) (state : SourceState) : SourceProgress :=
  let tracked := max state.items.size state.seen.size
  let required := (state.capacity.map CapacityBlock.requiredTrackedItems).getD (tracked + 1)
  { sourceId := s.id
    resource := s.resource
    status := state.status
    cursor := state.cursor
    trackedItems := state.items.size
    trackedVersions := state.seen.size
    maxTrackedItems := job.limits.maxTrackedItems
    capacityRemaining := job.limits.maxTrackedItems - tracked
    reason := match state.status with
      | .capacity => some "tracking-capacity-reached"
      | .lost => some "source-unavailable"
      | .catchup => some "catchup-needed"
      | .ready => none
    recovery := if state.status = .capacity then
        some (if (required : Int) ≤ maxTrackedItemsBound.max then "jobs.revise" else "new-scoped-monitor-required",
          required,maxTrackedItemsBound.max.toNat)
      else none }

def monitorProgress (h : Host) (job : JobRecord) : List SourceProgress :=
  job.sources.filterMap fun s => (job.sourceStates.get (h.key s.id)).map (sourceProgress job s)

structure PollResult where
  job : JobRecord
  alerts : List MonitorAlert
  pagesRead : Nat
  catchup : Bool
  sourceProgress : List SourceProgress

def Polling.result (h : Host) (p : Polling) (saved : JobRecord) : PollResult where
  job := saved
  alerts := sortAlerts h p.alerts
  pagesRead := p.pagesRead
  catchup := saved.sourceStates.entries.any (fun row => row.2.status = .catchup || row.2.status = .capacity) ||
    !p.queue.isEmpty
  sourceProgress := monitorProgress h saved

def poll (context : ToolContext) (id : String) (expectedRevision : Int) : M o PollResult := do
  let job ← Async.await (load context id (some expectedRevision) false)
  if job.state ≠ .active then refuse "Job cancelled"
  else if !o.source then refuse "Monitor source unavailable"
  else do
    let p ← pollPages context id job.version job.limits.maxPages (.start job)
    Async.await (authorize context p.next.sources)
    let now ← clock
    let record := p.record o.host now
    if ← storeSave record (some job.version) then pure (p.result o.host record)
    else refuse "Job changed during poll"

end programs

/-! ## The family -/

inductive Op where
  | create (context : ToolContext) (spec : JobSpec)
  | inspect (context : ToolContext) (id : String)
  | update (context : ToolContext) (id : String) (expectedRevision : Int) (patch : JobPatch)
  | cancel (context : ToolContext) (id : String) (expectedRevision : Int)
  | poll (context : ToolContext) (id : String) (expectedRevision : Int)

def program (o : Options) : Op → M o Unit
  | .create context spec => do let _ ← create context spec
  | .inspect context id => do let _ ← inspect context id
  | .update context id expectedRevision patch => do let _ ← update context id expectedRevision patch
  | .cancel context id expectedRevision => do let _ ← cancel context id expectedRevision
  | .poll context id expectedRevision => do let _ ← poll context id expectedRevision

def body (o : Options) (op : Op) : Proc (service o) := program o op .done

def boot (o : Options) (now : String) : World (service o) := World.initial { now }

end Neurobro.Jobs
