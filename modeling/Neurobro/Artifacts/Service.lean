import Neurobro.Artifacts.Reads

/-! The calls of the artifact store as programs over its durable steps. -/
namespace Neurobro.Artifacts

open Durable Script

/-- A reading that may throw. -/
def reading {α : Type} (f : Machine → Except String α) : Script Machine α := do
  let r ← look f
  lift r

def statement {α : Type} (f : Db → Except String (α × Db)) : Script Machine α := write (Machine.onDb f)

/-- The next random value. -/
def draw : Script Machine Nat := do
  let drawn ← look Machine.drawn
  note fun m => { m with drawn := m.drawn + 1 }
  return drawn

/-- The file of an original is made, then filled. -/
def writeBlob (id : String) (bytes : Bytes) : Script Machine Unit := do
  write (Machine.createBlob id)
  write (Machine.fillBlob id bytes)

def removeFile (id : String) : Script Machine Unit := do
  let there ← look fun m => (m.blob id).isSome
  when (there = true) (write (Machine.unlinkBlob id))

def removeStage (id : String) : Script Machine Unit := do
  lift (artifactId id)
  let area ← look fun m => m.area id
  guard (area.any Area.holdsLink = true) "artifact path contains a symbolic link or junction"
  when (area.isSome = true) (write fun m => .ok ((),m.setArea id none))

/-! Saving. -/

def save (h : Host) (now : Stamp) (input : ArtifactInput) (dependencies : List String) (linkedSources : List ArtifactRecord) :
    Script Machine ArtifactRecord := do
  let admitted ← reading fun m => admissible h m.db input dependencies linkedSources
  let drawn ← draw
  let record := input.record h admitted (h.uuid drawn) now
  lift (artifactId record.id)
  writeBlob record.id (encrypt h (h.nonce drawn) record input.bytes)
  rescue
    (statement (Db.saved record
      (dependencies ++ linkedSources.map (fun source => source.id) ++ (admitted.parent.map fun p => p.id).toList)))
    fun e => do
      removeFile record.id
      throw e
  return record

def copyIntoTask (h : Host) (now : Stamp) (sourceScope : ArtifactScope) (id : String) (targetScope : ArtifactScope)
    (name sourceRef : Option String) : Script Machine ArtifactRecord := do
  lift sourceScope.check
  lift targetScope.check
  guard (sourceScope.ownerId ≠ targetScope.ownerId) "artifact copy cannot cross owners"
  let source ← reading fun m => m.db.row sourceScope id
  let bytes ← reading fun m => m.read h sourceScope id
  let input : ArtifactInput := {
    ownerId := targetScope.ownerId
    taskId := targetScope.taskId
    name := name.getD source.name
    mimeType := some source.mimeType
    bytes := bytes
    sourceRef := if given sourceRef then sourceRef else keep source.sourceRef }
  save h now input [] [source]

/-! Stages. -/

def stageInput (h : Host) (scope : ArtifactScope) (stageId : String) (artifact : ArtifactRecord) : Script Machine Unit := do
  lift (fileName artifact.name)
  let bytes ← reading fun m => m.read h scope artifact.id
  write (Machine.createInput stageId (inputName artifact))
  write (Machine.fillInput stageId (inputName artifact) bytes)

def stageTask (h : Host) (now : Stamp) (scope : ArtifactScope) (artifactIds : List String) : Script Machine ArtifactStage := do
  let records ← reading fun m => m.stageable h scope artifactIds
  let drawn ← draw
  let stageId := h.uuid drawn
  lift (artifactId stageId)
  -- The row is there as a revoked one before any plaintext is.
  statement (Db.insertStage ⟨stageId,scope.ownerId,scope.taskId,artifactIds,some now⟩)
  rescue
    (do
      write (Machine.openArea stageId)
      each (stageInput h scope stageId) records
      statement (Db.setStage stageId none)
      return ⟨stageId,records.map fun artifact => (artifact,inputName artifact)⟩)
    fun e => do
      removeStage stageId
      throw e

/-- What a file of a stage is saved as. -/
structure OutputOptions where
  name : Option String := none
  parentId : Option String := none
  sourceRef : Option String := none
  mimeType : Option String := none

def putOutput (h : Host) (now : Stamp) (scope : ArtifactScope) (stageId file : String) (options : OutputOptions) :
    Script Machine ArtifactRecord := do
  let stage ← reading fun m => m.stage h scope stageId
  lift (fileName file)
  let parentId := options.parentId.or (if stage.inputIds.length = 1 then stage.inputIds.head? else none)
  let bytes ← reading fun m => m.output h stageId file
  let input : ArtifactInput := {
    ownerId := scope.ownerId
    taskId := scope.taskId
    name := options.name.getD file
    bytes := bytes
    parentId := keep parentId
    sourceRef := keep options.sourceRef
    mimeType := keep options.mimeType }
  save h now input stage.inputIds []

def releaseStage (now : Stamp) (scope : ArtifactScope) (stageId : String) : Script Machine Unit := do
  lift scope.check
  lift (artifactId stageId)
  let there ← look fun m => m.db.stages.any fun s => s.id = stageId ∧ s.ownerId = scope.ownerId ∧ s.taskId = scope.taskId
  guard (there = false) "artifact stage is absent in this scope"
  statement (Db.setStage stageId (some now))
  removeStage stageId

/-! Revocation. -/

def cleanupRevokedStages (ownerId : Option String) : Script Machine Unit := do
  let ids ← look fun m => (m.db.stages.filter fun s =>
    decide (s.revokedAt ≠ none) && ownerId.all fun o => s.ownerId = o).map fun s => s.id
  each removeStage ids

def finishErasure (pending : String × Stamp) : Script Machine Unit := do
  lift (artifactId pending.1)
  removeFile pending.1
  statement (Db.redacted pending.1 pending.2)

/-- Scrubbing replaced names from the database and its log changes no row. -/
def scrub : Script Machine Unit := statement fun db => .ok ((),db)

def finishErasures : Script Machine Unit := do
  let rows ← look fun m => m.db.pendingErasure
  each finishErasure rows
  when (rows ≠ []) do
    scrub
    statement (Db.forgetPending (rows.map Prod.fst))

def selectable (selector : ArtifactRevocation) : Except String Unit := do
  identifier selector.ownerId "owner ID"
  optional selector.taskId "task ID"
  optional selector.sourceRef "source reference"

def revocationGeneration (ownerId : String) : Script Machine Nat := do
  lift (identifier ownerId "owner ID")
  look fun m => m.db.generation ownerId

def invalidate (now : Stamp) (selector : ArtifactRevocation) (erase : Bool) : Script Machine ArtifactRevocationResult := do
  lift (selectable selector)
  let reach ← look fun m => m.db.reach selector
  statement (Db.invalidated selector erase now reach)
  cleanupRevokedStages (some selector.ownerId)
  when (erase = true) finishErasures
  let generation ← revocationGeneration selector.ownerId
  return ⟨reach.ids,now,generation⟩

/-! The store as a whole. -/

/-- The constructor: the schema, and what an earlier process left to be cleaned up. -/
def reopen : Script Machine Unit := do
  note fun m => { m with opened := false }
  scrub
  cleanupRevokedStages none
  finishErasures
  note fun m => { m with opened := true }

inductive Call where
  | reopen
  | dispose
  | put (input : ArtifactInput)
  | copyIntoTask (sourceScope : ArtifactScope) (id : String) (targetScope : ArtifactScope) (name sourceRef : Option String)
  | get (scope : ArtifactScope) (id : String)
  | read (scope : ArtifactScope) (id : String)
  | list (scope : ArtifactScope)
  | lineage (scope : ArtifactScope) (id : String)
  | dependencies (scope : ArtifactScope) (id : String)
  | stageTask (scope : ArtifactScope) (artifactIds : List String)
  | getStage (scope : ArtifactScope) (stageId : String)
  | putOutput (scope : ArtifactScope) (stageId file : String) (options : OutputOptions)
  | invalidate (selector : ArtifactRevocation) (erase : Bool)
  | revocationGeneration (ownerId : String)
  | releaseStage (scope : ArtifactScope) (stageId : String)
  | runtime (stageId : String) (area : Option Area)

def Call.revoke (selector : ArtifactRevocation) : Call := .invalidate selector false

def Call.erase (selector : ArtifactRevocation) : Call := .invalidate selector true

inductive Answer where
  | nothing
  | record (record : ArtifactRecord)
  | bytes (bytes : Bytes)
  | records (records : List ArtifactRecord)
  | stage (stage : ArtifactStage)
  | revocation (result : ArtifactRevocationResult)
  | number (n : Nat)

/-- A store that is closed answers nothing. -/
def ready (m : Script Machine Answer) : Script Machine Answer := do
  let opened ← look Machine.opened
  guard (opened = false) "artifact store is closed"
  m

/-- One call at the time `now`. The task runtime leaves the directory of a stage as it
likes, at any time. -/
def perform (h : Host) (event : Call × Stamp) : Script Machine Answer :=
  match event.1 with
  | .reopen => do
    reopen
    return .nothing
  | .dispose => do
    note fun m => { m with opened := false }
    return .nothing
  | .put input => ready do return .record (← save h event.2 input [] [])
  | .copyIntoTask sourceScope id targetScope name sourceRef => ready do
    return .record (← copyIntoTask h event.2 sourceScope id targetScope name sourceRef)
  | .get scope id => ready do return .record (← reading fun m => m.db.row scope id)
  | .read scope id => ready do return .bytes (← reading fun m => m.read h scope id)
  | .list scope => ready do return .records (← reading fun m => m.db.list scope)
  | .lineage scope id => ready do return .records (← reading fun m => m.db.lineage scope id)
  | .dependencies scope id => ready do return .records (← reading fun m => m.db.dependenciesOf scope id)
  | .stageTask scope artifactIds => ready do return .stage (← stageTask h event.2 scope artifactIds)
  | .getStage scope stageId => ready do return .stage (← reading fun m => m.getStage h scope stageId)
  | .putOutput scope stageId file options => ready do return .record (← putOutput h event.2 scope stageId file options)
  | .invalidate selector erase => ready do return .revocation (← invalidate event.2 selector erase)
  | .revocationGeneration ownerId => ready do return .number (← revocationGeneration ownerId)
  | .releaseStage scope stageId => ready do
    releaseStage event.2 scope stageId
    return .nothing
  | .runtime stageId area => do
    note fun m => m.setArea stageId area
    return .nothing

/-- What a crash leaves: the durable state alone. -/
def Machine.fell (m : Machine) : Machine := { m with opened := false }

/-- A call with its time and the fates of its durable steps. -/
abbrev Event := (Call × Stamp) × List Fate

/-- The store after a run that began with nothing. -/
def after (h : Host) (run : List Event) : Machine := play (perform h) Machine.fell {} run

/-- What a further call ends with. -/
def next (h : Host) (m : Machine) (event : Event) : Outcome Answer × Machine := stepOf (perform h) Machine.fell m event

end Neurobro.Artifacts
