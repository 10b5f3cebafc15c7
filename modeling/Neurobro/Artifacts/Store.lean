import Neurobro.Durable.Script
import Neurobro.Artifacts.Records

/-! The statements and file operations of the artifact store: its database, its sealed
originals and the directories of its stages, which the task runtime may change. -/
namespace Neurobro.Artifacts

open Durable Script

/-- What lies in a folder of a stage. `linked` tells that some link is below. -/
inductive Entry where
  | file (bytes : Bytes)
  | link
  | directory (linked : Bool)
  deriving DecidableEq

/-- The directory of a stage, `linked` when it or something beside its folders is a link. -/
structure Area where
  inputs : Option (List (String × Entry)) := none
  outputs : Option (List (String × Entry)) := none
  linked : Bool := false
  deriving DecidableEq

/-- `drawn` counts the random values drawn so far. -/
structure Machine where
  db : Db := {}
  blobs : List (String × Bytes) := []
  areas : List (String × Area) := []
  opened : Bool := false
  drawn : Nat := 0

/-- An optional text that is there and not empty. -/
def given (value : Option String) : Bool := value.any fun v => v ≠ ""

def boundedRead (entry : Option Entry) (maxBytes : Nat) : Except String Bytes :=
  match entry with
  | none => throw "ENOENT"
  | some .link => throw "artifact path contains a symbolic link or junction"
  | some (.directory _) => throw "artifact path is not a regular file"
  | some (.file bytes) =>
    if bytes.length > maxBytes then throw "artifact file exceeds limits or is not a private regular file" else pure bytes

def Entry.holdsLink : Entry → Bool
  | .file _ => false
  | .link => true
  | .directory linked => linked

namespace Area

def entry (folder : Option (List (String × Entry))) (name : String) : Option Entry :=
  (folder.getD []).find? (fun e => e.1 = name) |>.map Prod.snd

def holdsLink (area : Area) : Bool :=
  area.linked || (area.inputs.getD [] ++ area.outputs.getD []).any fun e => e.2.holdsLink

end Area

namespace Machine

def blob (m : Machine) (id : String) : Option Bytes := (m.blobs.find? fun b => b.1 = id).map Prod.snd

def area (m : Machine) (stageId : String) : Option Area := (m.areas.find? fun a => a.1 = stageId).map Prod.snd

def createBlob (id : String) (m : Machine) : Except String (Unit × Machine) :=
  if (m.blob id).isSome then .error "EEXIST" else .ok ((),{ m with blobs := m.blobs ++ [(id,[])] })

def fillBlob (id : String) (bytes : Bytes) (m : Machine) : Except String (Unit × Machine) :=
  .ok ((),{ m with blobs := m.blobs.map fun b => if b.1 = id then (id,bytes) else b })

def unlinkBlob (id : String) (m : Machine) : Except String (Unit × Machine) :=
  .ok ((),{ m with blobs := m.blobs.filter fun b => !decide (b.1 = id) })

/-- The directory of a stage is what it is given to be. -/
def setArea (stageId : String) (area : Option Area) (m : Machine) : Machine :=
  { m with areas := (m.areas.filter fun a => !decide (a.1 = stageId)) ++ (area.map fun a => (stageId,a)).toList }

/-- Both folders of a stage are made where they are missing. -/
def openArea (stageId : String) (m : Machine) : Except String (Unit × Machine) :=
  let area := (m.area stageId).getD {}
  if area.linked then .error "artifact path contains a symbolic link or junction"
  else .ok ((),m.setArea stageId (some { area with inputs := some (area.inputs.getD []), outputs := some (area.outputs.getD []) }))

def createInput (stageId name : String) (m : Machine) : Except String (Unit × Machine) :=
  let area := (m.area stageId).getD {}
  if (Area.entry area.inputs name).isSome then .error "EEXIST"
  else .ok ((),m.setArea stageId (some { area with inputs := some (area.inputs.getD [] ++ [(name,.file [])]) }))

def fillInput (stageId name : String) (bytes : Bytes) (m : Machine) : Except String (Unit × Machine) :=
  let area := (m.area stageId).getD {}
  let filled := (area.inputs.getD []).map fun e => if e.1 = name then (name,Entry.file bytes) else e
  .ok ((),m.setArea stageId (some { area with inputs := some filled }))

/-- A statement or transaction over the database alone. -/
def onDb {α : Type} (f : Db → Except String (α × Db)) (m : Machine) : Except String (α × Machine) :=
  (f m.db).map fun r => (r.1,{ m with db := r.2 })

end Machine

/-! Saving. -/

def ArtifactRecord.row (record : ArtifactRecord) : ArtifactRow where
  id := record.id
  ownerId := record.ownerId
  taskId := record.taskId
  parentId := record.parentId
  sourceRef := record.sourceRef
  record := record

namespace Db

def has (db : Db) (id : String) : Bool := db.artifacts.any fun r => r.id = id

def insertArtifact (record : ArtifactRecord) (db : Db) : Except String Db :=
  if db.has record.id then throw "UNIQUE constraint failed: artifacts.id"
  else if record.parentId.any fun p => !db.has p then throw "FOREIGN KEY constraint failed"
  else pure { db with artifacts := db.artifacts ++ [record.row] }

def insertDependency (db : Db) (d : Dependency) : Except String Db :=
  if db.dependencies.contains d then throw "UNIQUE constraint failed: artifact_dependencies"
  else if !db.has d.inputId then throw "FOREIGN KEY constraint failed"
  else pure { db with dependencies := db.dependencies ++ [d] }

/-- The transaction that saves an artifact with what it derives from. -/
def saved (record : ArtifactRecord) (inputIds : List String) (db : Db) : Except String (Unit × Db) := do
  let db ← db.insertArtifact record
  let db ← inputIds.eraseDups.foldlM (fun db inputId => db.insertDependency ⟨record.id,inputId⟩) db
  return ((),db)

/-! Stages. -/

def insertStage (stage : StageRow) (db : Db) : Except String (Unit × Db) :=
  if db.stages.any fun s => s.id = stage.id then throw "UNIQUE constraint failed: stages.id"
  else pure ((),{ db with stages := db.stages ++ [stage] })

def setStage (stageId : String) (revokedAt : Option Stamp) (db : Db) : Except String (Unit × Db) :=
  pure ((),{ db with stages := db.stages.map fun s => if s.id = stageId then { s with revokedAt := revokedAt } else s })

end Db

/-! Revocation. -/

/-- What a selector reaches: the rows it looked at, the artifacts, and the open stages. -/
structure Reach where
  rows : List ArtifactRow
  ids : List String
  stages : List StageRow

def ArtifactRevocation.selects (selector : ArtifactRevocation) (r : ArtifactRow) : Bool :=
  (!given selector.taskId || decide (some r.taskId = selector.taskId)) &&
    (!given selector.sourceRef || decide (r.sourceRef = selector.sourceRef))

namespace Db

/-- From what an artifact derives to the artifact, by both kinds of edges. -/
def edges (db : Db) (ownerId : String) (rows : List ArtifactRow) : List (String × String) :=
  (rows.filterMap fun r => if given r.parentId then some (r.parentId.getD "",r.id) else none) ++
    (db.dependencies.filter fun d => db.artifacts.any fun r => r.id = d.artifactId ∧ r.ownerId = ownerId).map
      fun d => (d.inputId,d.artifactId)

def reach (db : Db) (selector : ArtifactRevocation) : Reach :=
  let rows := db.artifacts.filter fun r => r.ownerId = selector.ownerId ∧ r.erasedAt = none
  let ids := Closure.closure (db.edges selector.ownerId rows) ((rows.filter selector.selects).map fun r => r.id)
  let stages := db.stages.filter fun s => decide (s.ownerId = selector.ownerId ∧ s.revokedAt = none) &&
    ((!given selector.taskId || decide (some s.taskId = selector.taskId)) && !given selector.sourceRef ||
      s.inputIds.any ids.contains)
  ⟨rows,ids,stages⟩

def bury (t : Tombstone) (db : Db) : Db :=
  if db.tombstones.any fun t' => t'.sameKey t then db else { db with tombstones := db.tombstones ++ [t] }

def revokeArtifacts (ids : List String) (revokedAt : Stamp) (db : Db) : Db :=
  { db with artifacts := db.artifacts.map fun r =>
      if r.id ∈ ids ∧ r.revokedAt = none then { r with revokedAt := some revokedAt } else r }

def revokeStages (ids : List String) (revokedAt : Stamp) (db : Db) : Db :=
  { db with stages := db.stages.map fun s => if s.id ∈ ids then { s with revokedAt := some revokedAt } else s }

def insertPending (erasedAt : Stamp) (db : Db) (id : String) : Db :=
  if db.pendingErasure.any fun p => p.1 = id then db
  else { db with pendingErasure := db.pendingErasure ++ [(id,erasedAt)] }

def bumpGeneration (ownerId : String) (db : Db) : Db :=
  if db.generations.any fun g => g.1 = ownerId then
    { db with generations := db.generations.map fun g => if g.1 = ownerId then (g.1,g.2 + 1) else g }
  else { db with generations := db.generations ++ [(ownerId,1)] }

/-- Whether a selector takes away anything that was not taken away before. -/
def news (reach : Reach) (t : Tombstone) (db : Db) : Bool :=
  (reach.rows.any fun r => decide (r.id ∈ reach.ids ∧ r.revokedAt = none)) || !reach.stages.isEmpty ||
    !(db.tombstones.any fun t' => t'.sameKey t)

/-- The transaction of a revocation. -/
def invalidated (selector : ArtifactRevocation) (erase : Bool) (revokedAt : Stamp) (reach : Reach) (db : Db) :
    Except String (Unit × Db) :=
  let t := selector.tombstone revokedAt
  let revoked := ((db.bury t).revokeArtifacts reach.ids revokedAt).revokeStages (reach.stages.map fun s => s.id) revokedAt
  let pending := if erase then reach.ids.foldl (insertPending revokedAt) revoked else revoked
  pure ((),if db.news reach t then pending.bumpGeneration selector.ownerId else pending)

/-- The name of an erased artifact is taken out of its record. -/
def redacted (id : String) (erasedAt : Stamp) (db : Db) : Except String (Unit × Db) :=
  if db.has id then
    pure ((),{ db with artifacts := db.artifacts.map fun r =>
      if r.id = id then { r with record := { r.record with name := "[erased]" }, erasedAt := some erasedAt } else r })
  else throw "Cannot read properties of undefined"

def forgetPending (ids : List String) (db : Db) : Except String (Unit × Db) :=
  pure ((),{ db with pendingErasure := db.pendingErasure.filter fun p => !ids.contains p.1 })

end Db

end Neurobro.Artifacts
