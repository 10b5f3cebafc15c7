import Neurobro.Memory.Reads

/-! Preferences, procedure candidates, derivations and coverage as they are written, the
opening of the store, and all its calls as one. -/
namespace Neurobro.Memory

open Durable Script

/-! Derivations. -/

/-- The source of a derivation is current and of its owner. -/
def derivable (ownerId : String) (db : Db) (ref : String) : Except String Unit :=
  match db.sourceRow ref with
  | none => throw "Derived source is unavailable"
  | some row => if row.owner ≠ ownerId ∨ row.state ≠ .active then throw "Derived source is unavailable" else pure ()

def Db.insertDerivation (d : Derivation) (db : Db) : Db :=
  if db.derivations.any fun e => decide (e.id = d.id ∧ e.kind = d.kind ∧ e.sourceRef = d.sourceRef) then db
  else { db with derivations := db.derivations ++ [d] }

/-- The registration inside a transaction. -/
def registered (ownerId id : String) (kind : DerivedKind) (sourceRefs : List String) (db : Db) : Except String Db := do
  required id "derived ID"
  sourceRefs.forM (derivable ownerId db)
  return sourceRefs.foldl (fun db ref => db.insertDerivation ⟨id,kind,ownerId,ref⟩) db

def registerDerived (ownerId id : String) (kind : DerivedKind) (sourceRefs : List String) : Script Machine Unit := do
  lift (required id "derived ID")
  let db ← look Machine.db
  lift (sourceRefs.forM (derivable ownerId db))
  each (fun ref => write (Machine.onDb fun db => .ok ((),db.insertDerivation ⟨id,kind,ownerId,ref⟩))) sourceRefs

/-! Preferences. -/

/-- A preference needs an explicit statement of the owner, made in a current source. -/
def preferable (input : PreferenceInput) (db : Db) : Except String Unit := do
  if input.explicitOwner = false ∨ input.enduring = false then
    throw "Task correction or inferred statement cannot become an enduring preference"
  required input.key "preference key"
  required input.text "preference text"
  required input.scope "preference scope"
  match db.sourceRow input.sourceRef with
  | none => throw "Preference source is unavailable"
  | some row => do
    if row.owner ≠ input.ownerId ∨ row.state ≠ .active then throw "Preference source is unavailable"
    let original ← decode row.payload
    if original.attribution ≠ .ownerExplicit ∨ original.forwarded = true then
      throw "Preference requires an exact explicit owner source"

/-- The row with the highest revision. -/
def latest : List PreferenceRow → Option PreferenceRow
  | [] => none
  | p :: rest => match latest rest with
    | none => some p
    | some q => if q.revision ≤ p.revision then some p else some q

def Db.previousPreference (db : Db) (input : PreferenceInput) : Option PreferenceRow :=
  latest (db.preferences.filter fun p =>
    decide (p.owner = input.ownerId) && decide (p.scope = input.scope) && decide (p.ruleKey = input.key))

/-- The preference an input makes after the one before it. -/
def PreferenceInput.after (input : PreferenceInput) (previous : Option PreferenceRow) (drawn now : String) :
    Except String Preference := do
  let revision : Nat := (previous.map fun p => p.revision).getD 0
  if input.expectedRevision.getD 0 ≠ (revision : Int) then throw "Preference revision conflict"
  return {
    id := (previous.map fun p => p.id).getD drawn
    ownerId := input.ownerId
    scope := input.scope
    text := input.text
    sourceRef := input.sourceRef
    revision := revision + 1
    createdAt := ((previous.bind fun p => p.payload).map fun p => p.createdAt).getD now
    updatedAt := now }

def Db.supersedePreferences (id : String) (db : Db) : Db :=
  { db with preferences := db.preferences.map fun p =>
      if p.id = id ∧ p.state = .active then { p with state := .superseded } else p }

def Preference.row (p : Preference) (key : String) : PreferenceRow :=
  ⟨p.id,p.revision,p.ownerId,p.scope,key,p.sourceRef,.active,some p⟩

/-- The transaction of a preference. -/
def preferred (now drawn : String) (input : PreferenceInput) (db : Db) : Except String (Preference × Db) := do
  let previous := db.previousPreference input
  let preference ← input.after previous drawn now
  let closed := if previous.isSome then db.supersedePreferences preference.id else db
  if closed.preferences.any fun p => decide (p.id = preference.id ∧ p.revision = preference.revision) then
    throw "UNIQUE constraint failed: preferences"
  let put := { closed with preferences := closed.preferences ++ [preference.row input.key] }
  let linked ← registered input.ownerId (preference.id ++ ":" ++ toString preference.revision) .preference [input.sourceRef] put
  return (preference,(linked.emitInvalidation input.ownerId [input.sourceRef] [] .preferenceUpdate now).2)

def putPreference (h : Host) (now : String) (input : PreferenceInput) : Script Machine Preference := do
  let db ← look Machine.db
  lift (preferable input db)
  let drawn ← randomUUID h
  transaction (fun _ => []) (preferred now drawn input)

/-! Procedure candidates. -/

def supportable (input : ProcedureInput) (db : Db) (ref : String) : Bool :=
  match db.sourceRow ref with
  | none => false
  | some row => decide (row.owner = input.ownerId) && decide (row.scope = input.scope) && decide (row.state = .active)

def mirrorable (input : ProcedureInput) (db : Db) : Except String Unit := do
  required input.hermesMemoryId "Hermes memory ID"
  required input.hermesVersion "Hermes memory version"
  required input.text "procedure text"
  if input.sourceRefs.length > 1000 then throw "Procedure source reference limit exceeded"
  if input.sourceRefs = [] ∨ input.sourceRefs.all (supportable input db) = false then
    throw "Procedure support is unavailable or outside scope"

/-- The same version comes again: nothing changes. -/
def sameCandidate (input : ProcedureInput) (old : ProcedureRow) : Except String ProcedureCandidate :=
  match old.payload with
  | none => throw "Hermes candidate version was invalidated"
  | some record =>
    if record.text ≠ input.text ∨ record.state ≠ input.state ∨ record.sourceRefs ≠ input.sourceRefs then
      throw "Hermes candidate version conflict"
    else pure record

def ProcedureCandidate.row (p : ProcedureCandidate) : ProcedureRow :=
  ⟨p.id,p.ownerId,p.scope,p.hermesMemoryId,p.hermesVersion,p.state,some p⟩

def Db.replaceProcedure (p : ProcedureCandidate) (db : Db) : Db :=
  { db with procedures := (db.procedures.filter fun q =>
      !decide (q.id = p.id ∨ q.owner = p.ownerId ∧ q.hermesId = p.hermesMemoryId)) ++ [p.row] }

def Db.deleteDerivations (id : String) (kind : DerivedKind) (db : Db) : Db :=
  { db with derivations := db.derivations.filter fun d => !decide (d.id = id ∧ d.kind = kind) }

/-- The transaction of a candidate. -/
def mirrored (now drawn : String) (input : ProcedureInput) (db : Db) : Except String (ProcedureCandidate × Db) :=
  let store (id : String) : Except String (ProcedureCandidate × Db) := do
    let record : ProcedureCandidate := { input with id := id, updatedAt := now }
    let linked ← registered input.ownerId id .procedure input.sourceRefs
      ((db.replaceProcedure record).deleteDerivations id .procedure)
    return (record,linked)
  match db.procedures.find? fun p => decide (p.owner = input.ownerId ∧ p.hermesId = input.hermesMemoryId) with
  | none => store drawn
  | some old =>
    if old.scope ≠ input.scope then throw "Hermes candidate scope conflict"
    else if old.hermesVersion = input.hermesVersion then (sameCandidate input old).map fun record => (record,db)
    else store old.id

def mirrorProcedureCandidate (h : Host) (now : String) (input : ProcedureInput) : Script Machine ProcedureCandidate := do
  let db ← look Machine.db
  lift (mirrorable input db)
  let drawn ← randomUUID h
  transaction (fun _ => []) (mirrored now drawn input)

/-! Coverage and contexts. -/

def recordCoverage (h : Host) (now : String) (input : CoverageInput) : Script Machine CoverageRecord := do
  guard (h.parses input.from_ = false ∨ h.parses input.to_ = false ∨ input.from_ > input.to_) "Invalid coverage range"
  guard (input.complete = true ∧ input.gaps ≠ []) "Coverage with gaps cannot be complete"
  let id ← randomUUID h
  let record : CoverageRecord := ⟨id,input.ownerId,input.accountId,input.scope,input.from_,input.to_,
    input.sourceGeneration,input.gaps,input.complete,now⟩
  write (Machine.onDb fun db => .ok ((),{ db with coverage := db.coverage ++ [record] }))
  return record

def buildContext (h : Host) (now : String) (request : ContextRequest) : Script Machine (String × ContextManifest) := do
  let built ← look fun m => m.context h now request
  let (text,manifest) ← lift built
  let drawn ← randomUUID h
  registerDerived request.access.ownerId (request.taskId ++ ":" ++ drawn) .transcript (manifest.primaryRefs.map fun p => p.ref)
  return (text,manifest)

/-! The store as a whole. -/

def Db.activeRows (db : Db) : List SourceRow := db.sources.filter fun r => r.state = .active

/-- The constructor: the schema and the check of the key, the erasures left over, and one
rebuild of the index. -/
def reopen : Script Machine Unit := do
  note fun m => { m with opened := false, index := [] }
  write vacuum
  finishErasures
  let rows ← look fun m => m.db.activeRows
  let entries ← lift (rows.mapM fun r => (decode r.payload).map fun source => (r.ref,source.text))
  note fun m => { m with opened := true, index := entries }

inductive Call where
  | reopen
  | ingestSource (input : SourceInput)
  | forget (access : MemoryAccess) (ref : String) (mode : Mode)
  | expireBefore (access : MemoryAccess) (cutoff : String)
  | putPreference (input : PreferenceInput)
  | mirrorProcedureCandidate (input : ProcedureInput)
  | registerDerived (ownerId id : String) (kind : DerivedKind) (sourceRefs : List String)
  | recordCoverage (input : CoverageInput)
  | buildContext (request : ContextRequest)

inductive Answer where
  | nothing
  | source (revision : SourceRevision)
  | invalidations (events : List Invalidation)
  | preference (record : Preference)
  | procedure (record : ProcedureCandidate)
  | coverage (record : CoverageRecord)
  | context (text : String) (manifest : ContextManifest)

/-- A store that is closed answers nothing. -/
def ready {α : Type} (m : Script Machine α) : Script Machine α := do
  let opened ← look Machine.opened
  guard (opened = false) "Memory store closed"
  m

/-- One call at the time `now`. -/
def perform (h : Host) (event : Call × String) : Script Machine Answer :=
  match event.1 with
  | .reopen => do
    reopen
    return .nothing
  | .ingestSource input => ready do return .source (← ingestSource h event.2 input)
  | .forget access ref mode => ready do return .invalidations [← forget event.2 access ref mode]
  | .expireBefore access cutoff => ready do return .invalidations (← expireBefore h event.2 access cutoff)
  | .putPreference input => ready do return .preference (← putPreference h event.2 input)
  | .mirrorProcedureCandidate input => ready do return .procedure (← mirrorProcedureCandidate h event.2 input)
  | .registerDerived ownerId id kind sourceRefs => ready do
    registerDerived ownerId id kind sourceRefs
    return .nothing
  | .recordCoverage input => ready do return .coverage (← recordCoverage h event.2 input)
  | .buildContext request => ready do
    let (text,manifest) ← buildContext h event.2 request
    return .context text manifest

/-- What a crash leaves: the durable state alone. -/
def Machine.fell (m : Machine) : Machine := { m with opened := false, index := [] }

/-- A call with its time and the fates of its durable steps. -/
abbrev Event := (Call × String) × List Fate

/-- The store after a run that began with nothing. -/
def after (h : Host) (run : List Event) : Machine := play (perform h) Machine.fell {} run

/-- What a further call ends with. -/
def next (h : Host) (m : Machine) (event : Event) : Outcome Answer × Machine := stepOf (perform h) Machine.fell m event

end Neurobro.Memory
