import Neurobro.Memory.Store

/-! What the memory store reads: revisions and originals, the full text search,
preferences, procedure candidates, coverage, and the context built of them. -/
namespace Neurobro.Memory

namespace Machine

/-- A revision as it is read, with the state of its row. -/
def revision (row : SourceRow) : Except String SourceRevision :=
  (decode row.payload).map fun source => { source with state := row.state }

def readSource (m : Machine) (access : MemoryAccess) (ref : String) (historical : Bool := false) :
    Except String (Option SourceRevision) :=
  match m.db.sourceRow ref with
  | none => .ok none
  | some row =>
    if access.permits row = false ∨ row.state = .erased ∨ (historical = false ∧ row.state ≠ .active) then .ok none
    else (revision row).map some

def currentSource (m : Machine) (access : MemoryAccess) (sourceId : String) : Except String (Option SourceRevision) :=
  let rows := m.db.sources.filter fun r =>
    decide (r.owner = access.ownerId) && decide (r.sourceId = sourceId) && decide (r.state = .active)
  match rows.filter access.permits with
  | [] => .ok none
  | [row] => m.readSource access row.ref
  | _ => .error "Current source is ambiguous across accounts; bind accountId"

def readOriginal (h : Host) (m : Machine) (access : MemoryAccess) (ref : String) : Except String Bytes :=
  match m.db.sourceRow ref with
  | none => .error "Original unavailable or outside scope"
  | some row =>
    if access.permits row = false ∨ row.state ≠ .active then .error "Original unavailable or outside scope"
    else match row.blob with
      | none => .error "Original unavailable or outside scope"
      | some blob => match m.blobs.find? fun b => b.1 = blob with
        | none => .error "ENOENT"
        | some (_,bytes) => if h.sha256 bytes ≠ row.originalHash then .error "Original hash mismatch" else .ok bytes

/-- The hits of the index are read one by one until there are enough; the scope is checked
before any text is given, stale entries included. -/
def hits (m : Machine) (access : MemoryAccess) (from_ to_ : String) (limit : Nat) :
    List MemoryHit → List (String × Int) → Except String (List MemoryHit)
  | found,[] => .ok found
  | found,(ref,score) :: rest => do
    match ← m.readSource access ref with
    | none => hits m access from_ to_ limit found rest
    | some source =>
      if (from_ ≠ "" ∧ source.eventAt < from_) ∨ (to_ ≠ "" ∧ source.eventAt > to_) then
        hits m access from_ to_ limit found rest
      else if found.length + 1 = limit then .ok (found ++ [⟨source,score⟩])
      else hits m access from_ to_ limit (found ++ [⟨source,score⟩]) rest

def query (h : Host) (m : Machine) (access : MemoryAccess) (text : String) (limit : Option Int := none)
    (from_ to_ : String := "") : Except String (List MemoryHit) :=
  let limit := limit.getD 20
  if limit < 1 ∨ limit > 1000 then .error "Query limit must be 1..1000"
  else
    let tokens := h.tokens text
    if tokens.isEmpty then .ok []
    else
      let expression := joined " AND " (tokens.map fun token => "\"" ++ token ++ "\"")
      m.hits access from_ to_ limit.toNat [] (h.search m.index expression)

/-- The order of the rows of preferences: by scope, then by key. -/
def preferenceLe (a b : PreferenceRow) : Bool := a.scope < b.scope || decide (a.scope = b.scope) && decide (a.ruleKey ≤ b.ruleKey)

/-- A preference stands while its source is current and of the bound account. -/
def supported (m : Machine) (access : MemoryAccess) (row : PreferenceRow) : Bool :=
  match m.db.sourceRow row.sourceRef with
  | none => false
  | some source => decide (source.state = .active) &&
    (decide (access.accountId.getD "" = "") || decide (source.account = access.accountId.getD ""))

def preferences (m : Machine) (access : MemoryAccess) : Except String (List Preference) :=
  let rows := m.db.preferences.filter fun p => decide (p.owner = access.ownerId) && decide (p.state = .active)
  let ordered := rows.insertionSort fun a b => preferenceLe a b = true
  ((ordered.filter fun p => access.scopes.contains p.scope).filter (m.supported access)).mapM fun p => decode p.payload

/-- Every source of a procedure can be read now. -/
def allReadable (m : Machine) (access : MemoryAccess) : List String → Except String Bool
  | [] => .ok true
  | ref :: rest => do
    match ← m.readSource access ref with
    | none => return false
    | some _ => allReadable m access rest

def keepReadable (m : Machine) (access : MemoryAccess) : List ProcedureCandidate → Except String (List ProcedureCandidate)
  | [] => .ok []
  | record :: rest => do
    let readable ← m.allReadable access record.sourceRefs
    let others ← keepReadable m access rest
    return if readable then record :: others else others

def procedures (m : Machine) (access : MemoryAccess) : Except String (List ProcedureCandidate) := do
  let rows := m.db.procedures.filter fun p => decide (p.owner = access.ownerId) && !decide (p.state = .retracted)
  let records ← (rows.filter fun p => access.scopes.contains p.scope).mapM fun p => decode p.payload
  m.keepReadable access records

def coverage (m : Machine) (access : MemoryAccess) : List CoverageRecord :=
  m.db.coverage.filter fun c => decide (c.ownerId = access.ownerId) && access.scopes.contains c.scope &&
    (decide (access.accountId.getD "" = "") || decide (c.accountId = access.accountId.getD ""))

end Machine

/-! The context of one run. -/

structure ContextRequest where
  access : MemoryAccess
  taskId : String
  instruction : String
  checkpoint : Option String := none
  recentMessages : List String := []
  currentCorrections : List String := []
  query : Option String := none
  sourceRefs : List String := []
  budgetTokens : Int
  countTokens : String → Int
  tokenizerId : String
  limit : Option Int := none
  includeProcedures : Bool := false

structure PrimaryRef where
  ref : String
  sha256 : String
  version : String
  deriving DecidableEq

structure Omission where
  ref : String
  reason : String
  deriving DecidableEq

structure ContextManifest where
  taskId : String
  ownerId : String
  generation : Nat
  builtAt : String
  tokenCount : Int
  tokenBudget : Int
  tokenizerId : String
  primaryRefs : List PrimaryRef
  preferenceRefs : List (String × Nat)
  procedureRefs : List String
  omissions : List Omission
  coverage : List CoverageRecord
  gaps : List Gap
  deriving DecidableEq

/-- The text built so far and what it refers to. -/
structure Draft where
  text : String
  primaryRefs : List PrimaryRef := []
  preferenceRefs : List (String × Nat) := []
  procedureRefs : List String := []
  omissions : List Omission := []
  deriving DecidableEq

/-! The sections of a context. -/

def Preference.section_ (p : Preference) : String :=
  "[SCOPED OWNER PREFERENCE " ++ p.scope ++ " source=" ++ p.sourceRef ++ "]\n" ++ p.text

def messageSection (message : String) : String := "[RECENT TASK DIALOGUE]\n" ++ message

def SourceRevision.section_ (s : SourceRevision) : String :=
  "[UNTRUSTED PRIMARY SOURCE ref=" ++ s.ref ++ " version=" ++ s.version ++ " scope=" ++ s.scope ++ " date=" ++ s.eventAt ++
    "]\n" ++ s.text

def CandidateState.text : CandidateState → String
  | .candidate => "candidate"
  | .disputed => "disputed"
  | .retracted => "retracted"

def ProcedureCandidate.section_ (p : ProcedureCandidate) : String :=
  "[HERMES PROCEDURE " ++ p.state.text ++ "; SUPPORT " ++ joined "," p.sourceRefs ++ "; NO AUTHORITY]\n" ++ p.text

def Gap.json (gap : Gap) : Json :=
  .obj ([("reason",.str gap.reason)] ++ (gap.from_.map fun x => ("from",Json.str x)).toList ++
    (gap.to_.map fun x => ("to",Json.str x)).toList ++ (gap.sourceId.map fun x => ("sourceId",Json.str x)).toList)

def Gap.section_ (h : Host) (gap : Gap) : String := "[COVERAGE GAP] " ++ gap.json.stringify h.render

namespace ContextRequest

def count (request : ContextRequest) (text : String) : Except String Int :=
  let n := request.countTokens text
  if n < 0 ∨ n > maxSafeInteger then .error "Tokenizer returned invalid token count" else .ok n

/-- A whole section is added or left out. -/
def add (request : ContextRequest) (ref section_ : String) (onAdded : Draft → Draft) (d : Draft) : Except String Draft := do
  let candidate := d.text ++ "\n" ++ section_
  if (← request.count candidate) > request.budgetTokens then
    return { d with omissions := d.omissions ++ [⟨ref,"whole_item_exceeds_remaining_token_budget"⟩] }
  else return onAdded { d with text := candidate }

def addPreference (request : ContextRequest) (d : Draft) (p : Preference) : Except String Draft :=
  request.add ("preference:" ++ p.id ++ ":" ++ toString p.revision) p.section_
    (fun d => { d with preferenceRefs := d.preferenceRefs ++ [(p.id,p.revision)] }) d

def addMessage (request : ContextRequest) (d : Draft) (message : String × Nat) : Except String Draft :=
  request.add ("recent:" ++ toString message.2) (messageSection message.1) (fun d => d) d

def addSource (request : ContextRequest) (d : Draft) (s : SourceRevision) : Except String Draft :=
  request.add s.ref s.section_ (fun d => { d with primaryRefs := d.primaryRefs ++ [⟨s.ref,s.sha256,s.version⟩] }) d

def addProcedure (request : ContextRequest) (d : Draft) (p : ProcedureCandidate) : Except String Draft :=
  request.add ("procedure:" ++ p.id) p.section_ (fun d => { d with procedureRefs := d.procedureRefs ++ [p.id] }) d

def addGap (h : Host) (request : ContextRequest) (d : Draft) (gap : Gap) : Except String Draft :=
  request.add "coverage-gap" (gap.section_ h) (fun d => d) d

/-- What the context begins with, whatever its budget. -/
def heading (request : ContextRequest) : String :=
  let start := "[CURRENT TASK " ++ request.taskId ++ "]\n" ++ request.instruction
  let checked := if request.checkpoint.getD "" = "" then start
    else start ++ "\n[CHECKPOINT]\n" ++ request.checkpoint.getD ""
  request.currentCorrections.foldl (fun text correction => text ++ "\n[CURRENT TASK CORRECTION]\n" ++ correction) checked

end ContextRequest

/-- A map from reference to revision, in the order of first insertion. -/
def setSource (sources : List SourceRevision) (source : SourceRevision) : List SourceRevision :=
  if sources.any fun s => s.ref = source.ref then sources.map fun s => if s.ref = source.ref then source else s
  else sources ++ [source]

/-- The references asked for by name: the revisions that can be read, and the rest. -/
def Machine.named (m : Machine) (access : MemoryAccess) (acc : List SourceRevision × List Omission) (ref : String) :
    Except String (List SourceRevision × List Omission) := do
  match ← m.readSource access ref with
  | some source => return (setSource acc.1 source,acc.2)
  | none => return (acc.1,acc.2 ++ [⟨ref,"unavailable_revoked_or_outside_scope"⟩])

/-- The revisions a context may show: those named, then those found. -/
def Machine.selected (h : Host) (m : Machine) (request : ContextRequest) :
    Except String (List SourceRevision × List Omission) := do
  let (sources,missing) ← request.sourceRefs.foldlM (m.named request.access) ([],[])
  if request.query.getD "" = "" then return (sources,missing)
  else
    let hits ← m.query h request.access (request.query.getD "") (some (request.limit.getD 20))
    return ((hits.map fun hit => hit.source).foldl setSource sources,missing)

/-- The gaps a context declares. -/
def Machine.declaredGaps (m : Machine) (access : MemoryAccess) : List Gap :=
  (m.coverage access).flatMap (fun c => c.gaps) ++
    if (m.coverage access).isEmpty then [{ reason := "Coverage has not been recorded; search hits do not prove completeness" }]
    else []

def Machine.withProcedures (m : Machine) (request : ContextRequest) (d : Draft) : Except String Draft :=
  if request.includeProcedures then do
    let records ← m.procedures request.access
    records.foldlM request.addProcedure d
  else .ok d

def Machine.context (h : Host) (now : String) (m : Machine) (request : ContextRequest) :
    Except String (String × ContextManifest) := do
  if request.budgetTokens < 1 ∨ request.budgetTokens > maxSafeInteger then throw "Invalid context token budget"
  required request.tokenizerId "tokenizer ID"
  if (← request.count request.heading) > request.budgetTokens then
    throw "Mandatory current instruction/correction exceeds context budget"
  let start : Draft := { text := request.heading }
  let preferred ← (← m.preferences request.access).foldlM request.addPreference start
  let discussed ← request.recentMessages.zipIdx.foldlM request.addMessage preferred
  let (sources,missing) ← m.selected h request
  let shown ← sources.foldlM request.addSource { discussed with omissions := discussed.omissions ++ missing }
  let taught ← m.withProcedures request shown
  let whole ← (m.declaredGaps request.access).foldlM (request.addGap h) taught
  let tokenCount ← request.count whole.text
  let manifest : ContextManifest := {
    taskId := request.taskId
    ownerId := request.access.ownerId
    generation := m.db.generation request.access.ownerId
    builtAt := now
    tokenCount := tokenCount
    tokenBudget := request.budgetTokens
    tokenizerId := request.tokenizerId
    primaryRefs := whole.primaryRefs
    preferenceRefs := whole.preferenceRefs
    procedureRefs := whole.procedureRefs
    omissions := whole.omissions
    coverage := m.coverage request.access
    gaps := m.declaredGaps request.access }
  return (whole.text,manifest)

end Neurobro.Memory
