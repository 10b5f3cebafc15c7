import Neurobro.Data.Json
import Neurobro.Data.Results

/-! The records of the memory store: source revisions with their rows, preferences,
procedure candidates, derivations, coverage and invalidations, and the queries over
their tables. -/
namespace Neurobro.Memory

abbrev Bytes := List UInt8

structure MemoryAccess where
  ownerId : String
  scopes : List String
  accountId : Option String
  deriving DecidableEq

inductive Attribution where
  | ownerExplicit
  | thirdParty
  | assistantProposal
  | inferred
  deriving DecidableEq

inductive SourceState where
  | active
  | superseded
  | revoked
  | erased
  deriving DecidableEq

/-- `revisionSequence` is the trusted sequence of transport edits, required to change an
existing source. -/
structure SourceInput where
  ownerId : String
  accountId : String
  scope : String
  sourceId : String
  version : String
  eventAt : String
  text : String
  original : Option Bytes := none
  mimeType : Option String := none
  attribution : Option Attribution := none
  forwarded : Option Bool := none
  sourceMetadata : Option Json := none
  revisionSequence : Option Int := none

structure SourceRevision where
  ref : String
  ownerId : String
  accountId : String
  scope : String
  sourceId : String
  version : String
  eventAt : String
  ingestedAt : String
  sha256 : String
  originalSha256 : String
  text : String
  mimeType : String
  attribution : Attribution
  forwarded : Bool
  sourceMetadata : Option Json
  state : SourceState
  revisionSequence : Int

structure MemoryHit where
  source : SourceRevision
  score : Int

structure Gap where
  reason : String
  from_ : Option String := none
  to_ : Option String := none
  sourceId : Option String := none
  deriving DecidableEq

structure CoverageRecord where
  id : String
  ownerId : String
  accountId : String
  scope : String
  from_ : String
  to_ : String
  sourceGeneration : String
  gaps : List Gap
  complete : Bool
  observedAt : String
  deriving DecidableEq

structure CoverageInput where
  ownerId : String
  accountId : String
  scope : String
  from_ : String
  to_ : String
  sourceGeneration : String
  gaps : List Gap
  complete : Bool

inductive CandidateState where
  | candidate
  | disputed
  | retracted
  deriving DecidableEq

structure ProcedureInput where
  ownerId : String
  scope : String
  hermesMemoryId : String
  hermesVersion : String
  text : String
  sourceRefs : List String
  state : CandidateState
  deriving DecidableEq

structure ProcedureCandidate extends ProcedureInput where
  id : String
  updatedAt : String
  deriving DecidableEq

structure Preference where
  id : String
  ownerId : String
  scope : String
  text : String
  sourceRef : String
  revision : Nat
  createdAt : String
  updatedAt : String
  deriving DecidableEq

structure PreferenceInput where
  ownerId : String
  scope : String
  key : String
  text : String
  sourceRef : String
  explicitOwner : Bool
  enduring : Bool
  expectedRevision : Option Int := none

inductive Reason where
  | sourceEdit
  | preferenceUpdate
  | stopUsing
  | retract
  | erase
  | retention
  deriving DecidableEq

/-- The host must discard or regenerate any engine transcript with these references. -/
structure Invalidation where
  generation : Nat
  ownerId : String
  sourceRefs : List String
  derivedRefs : List String
  reason : Reason
  at_ : String
  deriving DecidableEq

inductive Mode where
  | stopUsing
  | retract
  | erase
  deriving DecidableEq

def Mode.reason : Mode → Reason
  | .stopUsing => .stopUsing
  | .retract => .retract
  | .erase => .erase

/-- What `forget` makes of the revisions of the source. -/
def Mode.state : Mode → SourceState
  | .erase => .erased
  | _ => .revoked

inductive DerivedKind where
  | artifact
  | transcript
  | summary
  | preference
  | procedure
  deriving DecidableEq

def DerivedKind.text : DerivedKind → String
  | .artifact => "artifact"
  | .transcript => "transcript"
  | .summary => "summary"
  | .preference => "preference"
  | .procedure => "procedure"

/-- One row of the table `sources`. `blob` names the sealed original and `payload` is the
sealed revision. -/
structure SourceRow where
  ref : String
  owner : String
  account : String
  scope : String
  sourceId : String
  version : String
  eventAt : String
  ingestedAt : String
  hash : String
  originalHash : String
  blob : Option String
  state : SourceState
  payload : Option SourceRevision

structure SourceTombstone where
  owner : String
  account : String
  sourceId : String
  at_ : String
  deriving DecidableEq

inductive PreferenceState where
  | active
  | superseded
  | revoked
  deriving DecidableEq

structure PreferenceRow where
  id : String
  revision : Nat
  owner : String
  scope : String
  ruleKey : String
  sourceRef : String
  state : PreferenceState
  payload : Option Preference
  deriving DecidableEq

structure ProcedureRow where
  id : String
  owner : String
  scope : String
  hermesId : String
  hermesVersion : String
  state : CandidateState
  payload : Option ProcedureCandidate
  deriving DecidableEq

structure Derivation where
  id : String
  kind : DerivedKind
  owner : String
  sourceRef : String
  deriving DecidableEq

/-- A derivation as an invalidation names it. -/
def Derivation.name (d : Derivation) : String := d.kind.text ++ ":" ++ d.id

structure Db where
  sources : List SourceRow := []
  tombstones : List SourceTombstone := []
  preferences : List PreferenceRow := []
  procedures : List ProcedureRow := []
  derivations : List Derivation := []
  coverage : List CoverageRecord := []
  invalidations : List Invalidation := []

/-- The rows belong to one source of one account. -/
def SourceRow.Of (r : SourceRow) (owner account sourceId : String) : Prop :=
  r.owner = owner ∧ r.account = account ∧ r.sourceId = sourceId

instance (r : SourceRow) (owner account sourceId : String) : Decidable (r.Of owner account sourceId) :=
  inferInstanceAs (Decidable (_ ∧ _))

def MemoryAccess.permits (access : MemoryAccess) (row : SourceRow) : Bool :=
  decide (row.owner = access.ownerId) && access.scopes.contains row.scope &&
    (decide (access.accountId.getD "" = "") || decide (row.account = access.accountId.getD ""))

namespace Db

def sourceRow (db : Db) (ref : String) : Option SourceRow := db.sources.find? fun r => r.ref = ref

/-- Every revision of a source, in whatever state. -/
def related (db : Db) (owner account sourceId : String) : List SourceRow :=
  db.sources.filter fun r => r.Of owner account sourceId

/-- The current revisions of a source; an invariant of the store leaves at most one. -/
def current (db : Db) (owner account sourceId : String) : List SourceRow :=
  db.sources.filter fun r => decide (r.Of owner account sourceId) && decide (r.state = .active)

def tombstoned (db : Db) (owner account sourceId : String) : Bool :=
  db.tombstones.any fun t => decide (t.owner = owner ∧ t.account = account ∧ t.sourceId = sourceId)

def generation (db : Db) (ownerId : String) : Nat :=
  ((db.invalidations.filter fun e => e.ownerId = ownerId).map fun e => e.generation).foldl max 0

def invalidationsAfter (db : Db) (ownerId : String) (afterGeneration : Nat) : List Invalidation :=
  db.invalidations.filter fun e => decide (e.ownerId = ownerId) && decide (e.generation > afterGeneration)

end Db

/-- Reading a sealed record that is not there fails. -/
def decode {α : Type} : Option α → Except String α
  | some record => .ok record
  | none => .error "Invalid encrypted memory envelope"

theorem decode_ok {α : Type} {payload : Option α} {record : α} (h : decode payload = .ok record) :
    payload = some record := by
  cases payload with
  | none => contradiction
  | some record' => exact congrArg some (Except.ok.inj h)

def required (value field : String) : Except String Unit :=
  if value = "" ∨ utf16Length value > 4096 then .error ("Invalid " ++ field) else .ok ()

end Neurobro.Memory
