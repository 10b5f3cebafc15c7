import Neurobro.Jobs.Contracts

/-! The pure reducer of a monitoring job: what one page of a source adds to what is
tracked of it, and the alerts it raises. -/
namespace Neurobro.Jobs

/-- A source change as admitted: texts cut to their excerpts, the rest computed from
the complete value. -/
structure Change where
  kind : ChangeKind
  itemId : String
  version : String
  observedAt : String
  title : String
  text : String
  excerpts : Excerpts
  fingerprint : String
  itemKey : String
  eventKey : String
  matched : Bool
  score : Nat
  deriving DecidableEq

def eventKey (h : Host) (itemId version : String) : String := h.digest (stringArray [itemId,version])

def observationTime (h : Host) (text : String) : Except Err String :=
  match h.isoTime text with
  | some time => .ok time
  | none => .error "Invalid observation time"

def admitChange (h : Host) (job : JobRecord) (raw : SourceChange) : Except Err Change := do
  let itemId ← string raw.itemId "item id"
  let version ← string raw.version "item version"
  let observedAt ← observationTime h raw.observedAt
  let fullTitle := raw.title.getD ""
  let fullText := raw.text.getD ""
  .ok {
    kind := raw.kind
    itemId
    version
    observedAt
    title := (excerpt fullTitle titleLimit).1
    text := (excerpt fullText textLimit).1
    excerpts := excerptsOf fullTitle fullText
    fingerprint := h.digest (stringArray [raw.kind.text,fullTitle,fullText])
    itemKey := h.key itemId
    eventKey := eventKey h itemId version
    matched := «matches» h job.filter fullTitle fullText
    score := rank h job.filter fullTitle fullText }

def changeAlert (h : Host) (job : JobRecord) (source : JobSource) (c : Change) : MonitorAlert :=
  alert h job source c.itemId (.change c.kind) c.version c.observedAt c.title c.text c.excerpts c.score

/-- The variables of the loop over a page's changes. -/
structure Loop where
  next : SourceState
  itemCount : Nat
  eventCount : Nat
  alerts : List MonitorAlert

/-- One change. `none` when there is no room for it. -/
def Loop.take (h : Host) (job : JobRecord) (source : JobSource) (loop : Loop) (raw : Change) :
    Except Err (Option Loop) :=
  let previous := loop.next.items.get raw.itemKey
  match loop.next.seen.get raw.eventKey with
  | some fingerprint =>
    if fingerprint ≠ raw.fingerprint then .error "Conflicting source version" else .ok (some loop)
  | none =>
    if (previous.isNone && loop.itemCount ≥ job.limits.maxTrackedItems) ||
        loop.eventCount ≥ job.limits.maxTrackedItems then .ok none
    else
      let seen := { loop with
        itemCount := if previous.isNone then loop.itemCount + 1 else loop.itemCount
        eventCount := loop.eventCount + 1
        next.seen := loop.next.seen.put raw.eventKey raw.fingerprint }
      -- an old edit arriving after a tombstone cannot resurrect the item
      if previous.any (·.deleted) && raw.kind ≠ .delete then .ok (some seen)
      else
        let isMatch := if raw.kind = .delete then previous.any (·.matched) else raw.matched
        let tracked := { seen with next.items := seen.next.items.put raw.itemKey {
          version := raw.version
          fingerprint := raw.fingerprint
          matched := raw.kind ≠ .delete && isMatch
          deleted := raw.kind = .delete } }
        if isMatch || (raw.kind = .edit && previous.any (·.matched)) then
          .ok (some { tracked with alerts := tracked.alerts ++ [changeAlert h job source raw] })
        else .ok (some tracked)

def Loop.takeAll (h : Host) (job : JobRecord) (source : JobSource) : Loop → List Change →
    Except Err (Option Loop)
  | loop,[] => .ok (some loop)
  | loop,raw :: rest => do
    match ← loop.take h job source raw with
    | none => .ok none
    | some loop => loop.takeAll h job source rest

def requiredTrackedItems (old : SourceState) (changes : List Change) : Nat :=
  max (old.items.keys ++ changes.map Change.itemKey).dedup.length
    (old.seen.keys ++ changes.map Change.eventKey).dedup.length

def checkCursor : Option String → Except Err Unit
  | some cursor => (string cursor "cursor" 4096).map fun _ => ()
  | none => .ok ()

/-- The checks a page passes before anything is read from it. -/
def checkPage (job : JobRecord) (source : JobSource) (old : SourceState) (page : SourcePage) : Except Err Unit :=
  if page.sourceId ≠ source.id then .error "Source binding mismatch"
  else if page.changes.length > job.limits.pageSize then .error "Invalid source page"
  else do
    checkCursor page.cursor
    if page.hasMore && (page.cursor.all (· = "") || page.cursor = old.cursor) then
      .error "Source cursor did not advance"
    else .ok ()

/-- A page of a source that could not be read. -/
def collectLoss (h : Host) (job : JobRecord) (source : JobSource) (old : SourceState) (page : SourcePage)
    (now : String) : Except Err (SourceState × List MonitorAlert) :=
  if !page.changes.isEmpty || page.hasMore || page.cursor.isSome then .error "Unavailable source has data"
  else if old.status = .lost then .ok ({ old with status := .lost, capacity := none },[])
  else .ok ({ old with status := .lost, lossEpisode := old.lossEpisode + 1, capacity := none },
    [statusAlert h job source .sourceLost (old.lossEpisode + 1) now "Source unavailable"])

def restoration (h : Host) (job : JobRecord) (source : JobSource) (old : SourceState) (now : String) :
    List MonitorAlert :=
  if old.status = .lost then [statusAlert h job source .sourceRestored old.lossEpisode now "Source restored"]
  else []

def collectChanges (h : Host) (job : JobRecord) (source : JobSource) (old : SourceState) (page : SourcePage)
    (now : String) : Except Err (SourceState × List MonitorAlert) := do
  let changes ← page.changes.mapM (admitChange h job)
  let start : Loop := ⟨old,old.items.size,old.seen.size,restoration h job source old now⟩
  match ← start.takeAll h job source changes with
  | none => .ok ({ old with
      status := .capacity
      capacity := some { requiredTrackedItems := requiredTrackedItems old changes } },[])
  | some loop => .ok ({ loop.next with
      cursor := if page.cursor.isSome then page.cursor else loop.next.cursor
      status := if page.hasMore then .catchup else .ready
      capacity := none },sortAlerts h loop.alerts)

/-- Source metadata never supplies authority, filtering, ranking, or routing. -/
def collectMonitor (h : Host) (job : JobRecord) (source : JobSource) (page : SourcePage) (now : String) :
    Except Err (SourceState × List MonitorAlert) :=
  match job.sources.find? (· = source),job.sourceStates.get (h.key source.id) with
  | some _,some old => do
    checkPage job source old page
    if page.unavailable = some true then collectLoss h job source old page now
    else collectChanges h job source old page now
  | _,_ => .error "Source binding mismatch"

end Neurobro.Jobs
