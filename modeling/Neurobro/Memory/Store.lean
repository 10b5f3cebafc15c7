import Neurobro.Durable.Script
import Neurobro.Memory.Records

/-! The operations of the memory store over its database, its directory of sealed
originals and its index in memory. Every statement, transaction and file operation is one
durable step. -/
namespace Neurobro.Memory

open Durable Script

/-- What the store is given: its byte limit, the identifiers drawn for it, the digest, the
dates it can parse, how numbers are written, and the full text search with its tokens. -/
structure Host where
  uuid : Nat → String
  distinct : Function.Injective uuid
  maxBytes : Nat
  sha256 : Bytes → String
  parses : String → Bool
  render : Rat → String
  tokens : String → List String
  search : List (String × String) → String → List (String × Int)

/-- The durable state, the index in memory and whether the store is open. `drawn` counts
the identifiers drawn so far. `swept` records, for the specification only, the revisions
that were erased when an erasure was last finished. -/
structure Machine where
  db : Db := {}
  blobs : List (String × Bytes) := []
  index : List (String × String) := []
  opened : Bool := false
  drawn : Nat := 0
  swept : List String := []

def utf8 (text : String) : Bytes := text.toUTF8.toList

def blobName (ref : String) : String := ref ++ ".enc"

namespace Machine

def hasBlob (m : Machine) (name : String) : Bool := m.blobs.any fun b => b.1 = name

def createBlob (name : String) (m : Machine) : Except String (Unit × Machine) :=
  if m.hasBlob name then .error "EEXIST" else .ok ((),{ m with blobs := m.blobs ++ [(name,[])] })

def fillBlob (name : String) (bytes : Bytes) (m : Machine) : Except String (Unit × Machine) :=
  .ok ((),{ m with blobs := m.blobs.map fun b => if b.1 = name then (name,bytes) else b })

def unlink (name : String) (m : Machine) : Except String (Unit × Machine) :=
  if m.hasBlob name then .ok ((),{ m with blobs := m.blobs.filter fun b => !decide (b.1 = name) }) else .error "ENOENT"

/-- A statement over the database alone. -/
def onDb {α : Type} (f : Db → Except String (α × Db)) (m : Machine) : Except String (α × Machine) :=
  (f m.db).map fun r => (r.1,{ m with db := r.2 })

/-- A transaction over the database that also drops entries from the index. -/
def transacted {α : Type} (dropped : Db → List String) (f : Db → Except String (α × Db)) (m : Machine) :
    Except String (α × Machine) :=
  (f m.db).map fun r =>
    (r.1,{ m with db := r.2, index := m.index.filter fun entry => !(dropped m.db).contains entry.1 })

/-- The database is rolled back, the index in memory is not. -/
def rolledBack (old new : Machine) : Machine := { new with db := old.db }

end Machine

def randomUUID (h : Host) : Script Machine String := do
  let drawn ← look Machine.drawn
  note fun m => { m with drawn := m.drawn + 1 }
  return h.uuid drawn

def transaction {α : Type} (dropped : Db → List String) (f : Db → Except String (α × Db)) : Script Machine α :=
  step Machine.rolledBack (Machine.transacted dropped f)

/-! Invalidation. -/

def addOnce (derived : List String) (name : String) : List String :=
  if derived.contains name then derived else derived ++ [name]

namespace Db

def retractProcedure (id : String) (db : Db) : Db :=
  { db with procedures := db.procedures.map fun p =>
      if p.id = id then { p with state := .retracted, payload := none } else p }

def revokePreferences (ref : String) (db : Db) : Db :=
  { db with preferences := db.preferences.map fun p =>
      if p.sourceRef = ref then { p with state := .revoked, payload := none } else p }

/-- One derivation of a revision that is taken out of use. -/
def withdrawDerived (ref : String) (acc : Db × List String) (d : Derivation) : Db × List String :=
  let db := match d.kind with
    | .procedure => acc.1.retractProcedure d.id
    | .preference => acc.1.revokePreferences ref
    | _ => acc.1
  (db,addOnce acc.2 d.name)

def setState (ref : String) (state : SourceState) (db : Db) : Db :=
  { db with sources := db.sources.map fun r => if r.ref = ref then { r with state := state } else r }

def setPayload (ref : String) (db : Db) : Db :=
  { db with sources := db.sources.map fun r => if r.ref = ref then { r with payload := none } else r }

def setBlob (ref : String) (db : Db) : Db :=
  { db with sources := db.sources.map fun r => if r.ref = ref then { r with blob := none } else r }

/-- One revision is taken out of use, with its derivations. -/
def withdraw (ownerId : String) (state : SourceState) (acc : Db × List String) (ref : String) : Db × List String :=
  let derived := acc.1.derivations.filter fun d => decide (d.owner = ownerId) && decide (d.sourceRef = ref)
  let after := derived.foldl (withdrawDerived ref) acc
  (after.1.setState ref state,after.2)

def emitInvalidation (ownerId : String) (refs derivedRefs : List String) (reason : Reason) (now : String) (db : Db) :
    Invalidation × Db :=
  let invalidation : Invalidation := ⟨db.generation ownerId + 1,ownerId,refs,derivedRefs,reason,now⟩
  (invalidation,{ db with invalidations := db.invalidations ++ [invalidation] })

def invalidate (ownerId : String) (refs : List String) (reason : Reason) (state : SourceState) (now : String) (db : Db) :
    Invalidation × Db :=
  let after := refs.foldl (withdraw ownerId state) (db,[])
  emitInvalidation ownerId refs after.2 reason now after.1

/-- The gaps of one coverage record once some of its sources are withdrawn. -/
def coverageWithout (affected : List SourceRow) (reason now : String) (record : CoverageRecord) : CoverageRecord :=
  let sourceIds := affected.foldl (fun ids source => addOnce ids source.sourceId) []
  let kept := record.gaps.filter fun gap => gap.sourceId.getD "" = "" || !sourceIds.contains (gap.sourceId.getD "")
  { record with gaps := kept ++ sourceIds.map fun sourceId => { reason := reason, sourceId := some sourceId },
                complete := false, observedAt := now }

def withdrawCoverage (ownerId : String) (related : List SourceRow) (reason now : String) (db : Db) : Db :=
  { db with coverage := db.coverage.map fun record =>
      let affected := related.filter fun source => decide (source.account = record.accountId) &&
        decide (source.scope = record.scope) && decide (record.from_ ≤ source.eventAt) && decide (source.eventAt ≤ record.to_)
      if record.ownerId = ownerId ∧ !affected.isEmpty then coverageWithout affected reason now record else record }

end Db

/-! Ingestion. -/

def SourceInput.bytes (input : SourceInput) : Bytes := input.original.getD (utf8 input.text)

def SourceInput.revision (h : Host) (input : SourceInput) (ref now : String) : SourceRevision where
  ref := ref
  ownerId := input.ownerId
  accountId := input.accountId
  scope := input.scope
  sourceId := input.sourceId
  version := input.version
  eventAt := input.eventAt
  ingestedAt := now
  sha256 := h.sha256 (utf8 input.text)
  originalSha256 := h.sha256 input.bytes
  text := input.text
  mimeType := input.mimeType.getD "text/plain"
  attribution := input.attribution.getD .thirdParty
  forwarded := input.forwarded.getD false
  sourceMetadata := input.sourceMetadata
  state := .active
  revisionSequence := input.revisionSequence.getD 0

def SourceRevision.row (source : SourceRevision) (blob : String) : SourceRow where
  ref := source.ref
  owner := source.ownerId
  account := source.accountId
  scope := source.scope
  sourceId := source.sourceId
  version := source.version
  eventAt := source.eventAt
  ingestedAt := source.ingestedAt
  hash := source.sha256
  originalHash := source.originalSha256
  blob := some blob
  state := .active
  payload := some source

def maxSafeInteger : Int := 9007199254740991

/-- The checks on the input alone. -/
def wellFormed (h : Host) (input : SourceInput) : Except String Unit := do
  required input.ownerId "ownerId"
  required input.accountId "accountId"
  required input.scope "scope"
  required input.sourceId "sourceId"
  required input.version "version"
  if h.parses input.eventAt = false then throw "Invalid source eventAt"
  if ∃ metadata ∈ input.sourceMetadata, (metadata.stringify h.render).utf8ByteSize > 64 * 1024 then
    throw "Source metadata exceeds configured 64KiB limit; not truncated"
  if ∃ sequence ∈ input.revisionSequence, sequence < 0 ∨ sequence > maxSafeInteger then
    throw "Invalid source revisionSequence"
  if input.bytes.length > h.maxBytes ∨ input.text.utf8ByteSize > h.maxBytes then
    throw "Source exceeds configured byte limit; content was not truncated"

/-- A revision that is there already, given back when the same content comes again. -/
def sameVersion (h : Host) (input : SourceInput) (old : SourceRow) : Except String SourceRevision := do
  if old.state = .erased then throw "Source version was erased"
  if old.hash ≠ h.sha256 (utf8 input.text) ∨ old.originalHash ≠ h.sha256 input.bytes ∨ old.scope ≠ input.scope ∨
      old.eventAt ≠ input.eventAt then throw "Source version conflict"
  let source ← decode old.payload
  return { source with state := old.state }

/-- An update comes after the revision it replaces. -/
def ordered (input : SourceInput) (active : SourceRow) : Except String Unit :=
  match input.revisionSequence with
  | none => throw "Unordered source update requires trusted revisionSequence"
  | some sequence => do
    let source ← decode active.payload
    if sequence ≤ source.revisionSequence then throw "Stale source revisionSequence; current version preserved"

/-- What is refused or there already, before anything is written. -/
def admitted (h : Host) (input : SourceInput) (db : Db) : Except String (Option SourceRevision) := do
  wellFormed h input
  if db.tombstoned input.ownerId input.accountId input.sourceId then throw "Source is tombstoned"
  match (db.related input.ownerId input.accountId input.sourceId).find? fun r => r.version = input.version with
  | some old => return some (← sameVersion h input old)
  | none =>
    match (db.current input.ownerId input.accountId input.sourceId).head? with
    | some active => do
      ordered input active
      return none
    | none => return none

/-- The transaction that makes a revision the current one. -/
def ingested (now : String) (source : SourceRevision) (db : Db) : Except String (Unit × Db) :=
  let previous := (db.current source.ownerId source.accountId source.sourceId).map fun r => r.ref
  let before := if previous.isEmpty then db else (db.invalidate source.ownerId previous .sourceEdit .superseded now).2
  if before.sources.any fun r => decide (r.ref = source.ref) ||
      decide (r.Of source.ownerId source.accountId source.sourceId ∧ r.version = source.version) then
    throw "UNIQUE constraint failed: sources"
  else .ok ((),{ before with sources := before.sources ++ [source.row (blobName source.ref)] })

/-- The revisions an ingestion supersedes. -/
def superseded (source : SourceRevision) (db : Db) : List String :=
  (db.current source.ownerId source.accountId source.sourceId).map fun r => r.ref

def ingestSource (h : Host) (now : String) (input : SourceInput) : Script Machine SourceRevision := do
  let db ← look Machine.db
  match ← lift (admitted h input db) with
  | some old => return old
  | none =>
    let ref ← randomUUID h
    let source := input.revision h ref now
    write (Machine.createBlob (blobName ref))
    write (Machine.fillBlob (blobName ref) input.bytes)
    match ← attempt Machine.rolledBack (Machine.transacted (superseded source) (ingested now source)) with
    | .error e =>
      write (Machine.unlink (blobName ref))
      throw e
    | .ok () =>
      note fun m => { m with index := m.index ++ [(ref,input.text)] }
      return source

/-! Erasure. -/

/-- The originals still to be deleted. -/
def Db.unfinished (db : Db) : List (String × String) :=
  db.sources.filterMap fun r => if r.state = .erased then r.blob.map fun blob => (r.ref,blob) else none

def finishErasure (row : String × String) : Script Machine Unit := do
  let there ← look fun m => m.hasBlob row.2
  when (there = true) (write (Machine.unlink row.2))
  write (Machine.onDb fun db => .ok ((),db.setBlob row.1))

def vacuum (m : Machine) : Except String (Unit × Machine) := .ok ((),m)

def Db.erasedRefs (db : Db) : List String :=
  (db.sources.filter fun r => r.state = .erased).map fun r => r.ref

def finishErasures : Script Machine Unit := do
  let rows ← look fun m => m.db.unfinished
  each finishErasure rows
  when (rows ≠ []) (write vacuum)
  note fun m => { m with swept := m.swept ++ m.db.erasedRefs }

/-- The transaction of `forget`. -/
def forgotten (now : String) (access : MemoryAccess) (row : SourceRow) (related : List SourceRow) (mode : Mode) (db : Db) :
    Except String (Invalidation × Db) :=
  let buried := if db.tombstoned row.owner row.account row.sourceId then db
    else { db with tombstones := db.tombstones ++ [⟨row.owner,row.account,row.sourceId,now⟩] }
  let taken := buried.invalidate access.ownerId (related.map fun r => r.ref) mode.reason mode.state now
  let emptied := if mode = .erase then related.foldl (fun db r => db.setPayload r.ref) taken.2 else taken.2
  .ok (taken.1,emptied.withdrawCoverage access.ownerId related
    (if mode = .erase then "Source erased by owner" else "Source withdrawn from use") now)

def forget (now : String) (access : MemoryAccess) (ref : String) (mode : Mode) : Script Machine Invalidation := do
  let db ← look Machine.db
  match db.sourceRow ref with
  | none => throw "Forget target is unavailable or outside scope"
  | some row =>
    guard (access.permits row = false) "Forget target is unavailable or outside scope"
    let related := db.related row.owner row.account row.sourceId
    let event ← transaction (fun _ => related.map fun r => r.ref) (forgotten now access row related mode)
    when (mode = .erase) finishErasures
    return event

/-- The transaction that erases the expired revisions of a source with later ones. -/
def retained (now : String) (access : MemoryAccess) (related : List SourceRow) (expired : List String) (db : Db) :
    Except String (Invalidation × Db) :=
  let taken := db.invalidate access.ownerId expired .retention .erased now
  let emptied := expired.foldl (fun db ref => db.setPayload ref) taken.2
  .ok (taken.1,emptied.withdrawCoverage access.ownerId (related.filter fun r => expired.contains r.ref)
    "Source erased by retention" now)

/-- One turn of the loop over the revisions before the cutoff. -/
def expire (now : String) (access : MemoryAccess) (cutoff : String)
    (acc : List (String × String) × List Invalidation) (ref : String) :
    Script Machine (List (String × String) × List Invalidation) := do
  let db ← look Machine.db
  match db.sourceRow ref with
  | none => throw "Cannot read properties of undefined"
  | some row =>
    if acc.1.contains (row.account,row.sourceId) then return acc
    else
      let seen := acc.1 ++ [(row.account,row.sourceId)]
      let related := (db.related row.owner row.account row.sourceId).filter fun r => !decide (r.state = .erased)
      if related.all fun r => r.eventAt < cutoff then
        let event ← forget now access ref .erase
        return (seen,acc.2 ++ [event])
      else
        let expired := (related.filter fun r => access.permits r && decide (r.eventAt < cutoff)).map fun r => r.ref
        let event ← transaction (fun _ => expired) (retained now access related expired)
        finishErasures
        return (seen,acc.2 ++ [event])

def expireBefore (h : Host) (now : String) (access : MemoryAccess) (cutoff : String) :
    Script Machine (List Invalidation) := do
  guard (h.parses cutoff = false) "Invalid retention cutoff"
  let rows ← look fun m => m.db.sources.filter fun r => decide (r.owner = access.ownerId) &&
    decide (r.eventAt < cutoff) && !decide (r.state = .erased) && access.permits r
  let (_,events) ← fold (expire now access cutoff) ([],[]) (rows.map fun r => r.ref)
  return events

end Neurobro.Memory
