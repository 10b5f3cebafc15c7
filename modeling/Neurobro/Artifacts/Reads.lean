import Neurobro.Artifacts.Store

/-! The readings of the artifact store: single records, originals, lists, the ancestry of
an artifact and the stages it is opened in. -/
namespace Neurobro.Artifacts

namespace Db

/-- The record of an artifact that is neither revoked nor under a tombstone. -/
def row (db : Db) (scope : ArtifactScope) (id : String) : Except String ArtifactRecord := do
  scope.check
  artifactId id
  match db.find scope id with
  | none => throw "artifact does not exist in this owner/task scope"
  | some r =>
    if r.revokedAt.isSome ∨ db.isTombstoned scope r.record.sourceRef = true then throw "artifact has been revoked"
    return r.record

def list (db : Db) (scope : ArtifactScope) : Except String (List ArtifactRecord) := do
  scope.check
  let rows := db.artifacts.filter fun r => r.ownerId = scope.ownerId ∧ r.taskId = scope.taskId ∧ r.revokedAt = none
  rows.mapM fun r => db.row scope r.id

/-- The loop up the parents. It sees each row at most once, so one turn more than there
are rows is enough. -/
def climb (db : Db) (scope : ArtifactScope) :
    Nat → List String → List ArtifactRecord → Option String → Except String (List ArtifactRecord)
  | 0,_,_,_ => throw "artifact lineage cycle"
  | fuel+1,seen,found,current =>
    if given current = false then pure found
    else if seen.contains (current.getD "") then throw "artifact lineage cycle"
    else do
      let record ← db.row scope (current.getD "")
      climb db scope fuel (seen ++ [current.getD ""]) (record :: found) record.parentId

def lineage (db : Db) (scope : ArtifactScope) (id : String) : Except String (List ArtifactRecord) :=
  db.climb scope (db.artifacts.length + 2) [] [] (some id)

/-- The inputs of an artifact, each with its task. -/
def inputs (db : Db) (ownerId id : String) : List (String × String) :=
  (db.dependencies.filter fun d => d.artifactId = id).filterMap fun d =>
    (db.artifacts.find? fun r => r.id = d.inputId ∧ r.ownerId = ownerId).map fun r => (r.id,r.taskId)

def dependenciesOf (db : Db) (scope : ArtifactScope) (id : String) : Except String (List ArtifactRecord) := do
  let _ ← db.row scope id
  (db.inputs scope.ownerId id).mapM fun input => db.row ⟨scope.ownerId,input.2⟩ input.1

end Db

def inputName (record : ArtifactRecord) : String := record.id ++ "_" ++ record.name

def sizes (records : List ArtifactRecord) : Nat := records.foldl (fun total r => total + r.size) 0

namespace Machine

def read (h : Host) (m : Machine) (scope : ArtifactScope) (id : String) : Except String Bytes := do
  let record ← m.db.row scope id
  let encrypted ← boundedRead ((m.blob record.id).map .file) (h.maxBytes + 34)
  decrypt h record encrypted

/-- The records of what is to be staged. -/
def stageable (h : Host) (m : Machine) (scope : ArtifactScope) (artifactIds : List String) :
    Except String (List ArtifactRecord) := do
  scope.check
  if artifactIds.length > 256 ∨ ¬artifactIds.Nodup then throw "invalid artifact staging set"
  if m.db.isTombstoned scope none = true then throw "artifact scope has been revoked"
  let records ← artifactIds.mapM fun id => m.db.row scope id
  if sizes records > h.maxStageBytes then throw "artifact staging set exceeds aggregate byte limit"
  return records

/-- A staged input is what its record says. -/
def intact (h : Host) (m : Machine) (scope : ArtifactScope) (area : Area) (inputId : String) : Except String Unit := do
  let input ← m.db.row scope inputId
  fileName input.name
  if area.linked = true then throw "artifact path contains a symbolic link or junction"
  let bytes ← boundedRead (Area.entry area.inputs (inputName input)) h.maxBytes
  if bytes.length ≠ input.size ∨ h.sha256 bytes ≠ input.sha256 then throw "staged artifact input was modified"

/-- An open stage whose inputs are all in order. -/
def stage (h : Host) (m : Machine) (scope : ArtifactScope) (id : String) : Except String StageRow := do
  scope.check
  artifactId id
  match m.db.stages.find? fun s => s.id = id ∧ s.ownerId = scope.ownerId ∧ s.taskId = scope.taskId with
  | none => throw "artifact stage is absent or revoked in this scope"
  | some s => do
    if s.revokedAt.isSome ∨ m.db.isTombstoned scope none = true then
      throw "artifact stage is absent or revoked in this scope"
    let area := (m.area id).getD {}
    s.inputIds.forM (m.intact h scope area)
    if area.linked = true then throw "artifact path contains a symbolic link or junction"
    if area.inputs = none ∨ area.outputs = none then throw "artifact stage directory is unavailable"
    return s

def getStage (h : Host) (m : Machine) (scope : ArtifactScope) (stageId : String) : Except String ArtifactStage := do
  let s ← m.stage h scope stageId
  let inputs ← s.inputIds.mapM fun id => m.db.row scope id
  inputs.forM fun artifact => fileName artifact.name
  return ⟨stageId,inputs.map fun artifact => (artifact,inputName artifact)⟩

/-- A file the task left among the outputs of its stage. -/
def output (h : Host) (m : Machine) (stageId file : String) : Except String Bytes := do
  let area := (m.area stageId).getD {}
  if area.linked = true then throw "artifact path contains a symbolic link or junction"
  boundedRead (Area.entry area.outputs file) h.maxBytes

end Machine

/-! What is checked before an artifact is saved. -/

/-- The MIME type, the source and the parent of what is to be saved. -/
structure Admitted where
  mimeType : String
  sourceRef : Option String
  parent : Option ArtifactRecord

def Db.parentOf (db : Db) (scope : ArtifactScope) (parentId : Option String) : Except String (Option ArtifactRecord) :=
  if given parentId then (db.row scope (parentId.getD "")).map some else pure none

def sameOwner (ownerId : String) (db : Db) (source : ArtifactRecord) : Except String Unit := do
  if source.ownerId ≠ ownerId then throw "artifact linked source cannot cross owners"
  let _ ← db.row ⟨source.ownerId,source.taskId⟩ source.id
  return ()

def admissible (h : Host) (db : Db) (input : ArtifactInput) (dependencies : List String)
    (linkedSources : List ArtifactRecord) : Except String Admitted := do
  let scope : ArtifactScope := ⟨input.ownerId,input.taskId⟩
  scope.check
  fileName input.name
  if input.bytes.length > h.maxBytes then throw "artifact exceeds byte limit"
  optional input.sourceRef "source reference"
  let mimeType ← h.sniffMime input.bytes input.mimeType
  if h.allowed.any fun allowed => !allowed.contains mimeType then throw "artifact MIME type is disabled by policy"
  let parent ← db.parentOf scope input.parentId
  dependencies.forM fun dependency => (db.row scope dependency).map fun _ => ()
  linkedSources.forM (sameOwner input.ownerId db)
  let sourceRef := input.sourceRef.or (parent.bind fun p => p.sourceRef)
  if db.isTombstoned scope sourceRef = true then throw "artifact source or scope has been revoked"
  return ⟨mimeType,sourceRef,parent⟩

def keep (value : Option String) : Option String := if given value then value else none

def ArtifactInput.record (h : Host) (input : ArtifactInput) (admitted : Admitted) (id : String) (createdAt : Stamp) :
    ArtifactRecord where
  id := id
  ownerId := input.ownerId
  taskId := input.taskId
  name := input.name
  mimeType := admitted.mimeType
  sha256 := h.sha256 input.bytes
  size := input.bytes.length
  createdAt := createdAt
  parentId := keep input.parentId
  sourceRef := keep admitted.sourceRef

end Neurobro.Artifacts
