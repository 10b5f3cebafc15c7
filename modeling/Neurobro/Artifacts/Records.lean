import Neurobro.Agent.Text
import Neurobro.Data.Closure
import Neurobro.Data.Json
import Neurobro.Data.Results

/-! The artifacts of an owner's tasks: what is stored of each, what they derive from, the
stages they are opened in, and the checks of the names they are stored under. -/
namespace Neurobro.Artifacts

abbrev Bytes := List UInt8

structure ArtifactScope where
  ownerId : String
  taskId : String
  deriving DecidableEq

/-- An instant as it is written down; it never is the empty text. -/
structure Stamp where
  text : String
  written : text ≠ ""
  deriving DecidableEq

structure ArtifactRecord where
  id : String
  ownerId : String
  taskId : String
  name : String
  mimeType : String
  sha256 : String
  size : Nat
  createdAt : Stamp
  parentId : Option String
  sourceRef : Option String
  deriving DecidableEq

structure ArtifactInput where
  ownerId : String
  taskId : String
  name : String
  bytes : Bytes
  mimeType : Option String := none
  parentId : Option String := none
  sourceRef : Option String := none

structure ArtifactRevocation where
  ownerId : String
  taskId : Option String := none
  sourceRef : Option String := none
  deriving DecidableEq

structure ArtifactRevocationResult where
  artifactIds : List String
  revokedAt : Stamp
  generation : Nat
  deriving DecidableEq

structure ArtifactStage where
  id : String
  inputs : List (ArtifactRecord × String)
  deriving DecidableEq

/-! The tables. -/

structure ArtifactRow where
  id : String
  ownerId : String
  taskId : String
  parentId : Option String
  sourceRef : Option String
  record : ArtifactRecord
  revokedAt : Option Stamp := none
  erasedAt : Option Stamp := none
  deriving DecidableEq

structure Dependency where
  artifactId : String
  inputId : String
  deriving DecidableEq

structure StageRow where
  id : String
  ownerId : String
  taskId : String
  inputIds : List String
  revokedAt : Option Stamp
  deriving DecidableEq

/-- An empty task or source stands for all of them. -/
structure Tombstone where
  ownerId : String
  taskId : String
  sourceRef : String
  revokedAt : Stamp
  deriving DecidableEq

structure Db where
  artifacts : List ArtifactRow := []
  dependencies : List Dependency := []
  stages : List StageRow := []
  tombstones : List Tombstone := []
  generations : List (String × Nat) := []
  pendingErasure : List (String × Stamp) := []

def ArtifactRow.scope (r : ArtifactRow) : ArtifactScope := ⟨r.ownerId,r.taskId⟩

/-- A tombstone lies on a scope and a source. -/
def Tombstone.covers (t : Tombstone) (scope : ArtifactScope) (sourceRef : Option String) : Prop :=
  t.ownerId = scope.ownerId ∧ (t.taskId = "" ∨ t.taskId = scope.taskId) ∧
    (t.sourceRef = "" ∨ t.sourceRef = sourceRef.getD "")

instance (t : Tombstone) (scope : ArtifactScope) (sourceRef : Option String) : Decidable (t.covers scope sourceRef) :=
  inferInstanceAs (Decidable (_ ∧ _ ∧ _))

/-- The tombstone a selector leaves. -/
def ArtifactRevocation.tombstone (selector : ArtifactRevocation) (revokedAt : Stamp) : Tombstone :=
  ⟨selector.ownerId,selector.taskId.getD "",selector.sourceRef.getD "",revokedAt⟩

def Tombstone.sameKey (t t' : Tombstone) : Prop :=
  t.ownerId = t'.ownerId ∧ t.taskId = t'.taskId ∧ t.sourceRef = t'.sourceRef

instance (t t' : Tombstone) : Decidable (t.sameKey t') := inferInstanceAs (Decidable (_ ∧ _ ∧ _))

namespace Db

def isTombstoned (db : Db) (scope : ArtifactScope) (sourceRef : Option String) : Bool :=
  db.tombstones.any fun t => t.covers scope sourceRef

def find (db : Db) (scope : ArtifactScope) (id : String) : Option ArtifactRow :=
  db.artifacts.find? fun r => r.id = id ∧ r.ownerId = scope.ownerId ∧ r.taskId = scope.taskId

def generation (db : Db) (ownerId : String) : Nat :=
  ((db.generations.find? fun g => g.1 = ownerId).map Prod.snd).getD 0

end Db

/-! The checks of names. -/

def controls (c : Char) : Bool := c.toNat ≤ 0x1f || c.toNat = 0x7f

def identifier (value label : String) : Except String Unit :=
  if value = "" ∨ utf16Length value > 512 ∨ value.toList.any controls then
    throw ("invalid artifact " ++ label)
  else pure ()

/-- A check of what may be left out. -/
def optional (value : Option String) (label : String) : Except String Unit :=
  match value with
  | none => pure ()
  | some value => identifier value label

def ArtifactScope.check (scope : ArtifactScope) : Except String Unit := do
  identifier scope.ownerId "owner ID"
  identifier scope.taskId "task ID"

def lowerHex (c : Char) : Bool := ('0' ≤ c && c ≤ '9') || ('a' ≤ c && c ≤ 'f')

/-- The shape of a drawn identifier. -/
def idPattern (id : String) : Bool :=
  let cs := id.toList
  decide (cs.length = 36) && (List.range 36).all fun i =>
    if i = 8 ∨ i = 13 ∨ i = 18 ∨ i = 23 then cs.getD i ' ' = '-' else lowerHex (cs.getD i ' ')

def artifactId (id : String) : Except String Unit :=
  if idPattern id = false then throw "invalid artifact or stage ID" else pure ()

def forbidden (c : Char) : Bool := controls c || "/\\:<>\"|?*".toList.contains c

/-- The part of a name before its first dot. -/
def stem (name : String) : List Char := name.toList.takeWhile fun c => c != '.'

def deviceNames : List String :=
  ["con","prn","aux","nul","conin$","conout$"] ++
    (["com","lpt"].flatMap fun device => "123456789¹²³".toList.map fun c => device ++ String.ofList [c])

def reserved (name : String) : Bool :=
  deviceNames.any fun device => device.toList = (stem name).map Char.toLower

def fileName (name : String) : Except String Unit :=
  if name = "" ∨ utf16Length name > 180 ∨ name ≠ Agent.trim name ∨ name.toList.any forbidden ∨ name = "." ∨ name = ".." ∨
      name.toList.getLast? = some '.' ∨ name.toList.getLast? = some ' ' ∨ reserved name then
    throw "invalid artifact file name"
  else pure ()

/-! What the store is given. -/

/-- The letters NART01. -/
def FORMAT : Bytes := [78,65,82,84,48,49]

/-- Authenticated encryption under the key of the store: what was sealed opens again with
the same additional data. -/
structure Cipher where
  close : Bytes → Bytes → Bytes → Bytes × Bytes
  open_ : Bytes → Bytes → Bytes → Bytes → Except String Bytes
  tag : ∀ nonce aad bytes, (close nonce aad bytes).1.length = 16
  stream : ∀ nonce aad bytes, (close nonce aad bytes).2.length = bytes.length
  opens : ∀ nonce aad bytes, open_ nonce aad (close nonce aad bytes).1 (close nonce aad bytes).2 = .ok bytes

/-- Twelve random bytes. -/
structure Nonce where
  bytes : Bytes
  size : bytes.length = 12

structure Host where
  uuid : Nat → String
  nonce : Nat → Nonce
  cipher : Cipher
  sha256 : Bytes → String
  sniffMime : Bytes → Option String → Except String String
  allowed : Option (List String)
  maxBytes : Nat
  maxStageBytes : Nat

/-- The data a record's original is sealed with. -/
def aad (record : ArtifactRecord) : Bytes :=
  let parts := [record.id,record.ownerId,record.taskId,record.name,record.mimeType,record.sha256].map quote
  let absent (value : Option String) := (value.map quote).getD "null"
  let whole := "[" ++ joined "," (parts ++ [toString record.size,quote record.createdAt.text,absent record.parentId,absent record.sourceRef]) ++ "]"
  whole.toUTF8.toList

def encrypt (h : Host) (nonce : Nonce) (record : ArtifactRecord) (bytes : Bytes) : Bytes :=
  let sealed := h.cipher.close nonce.bytes (aad record) bytes
  FORMAT ++ nonce.bytes ++ sealed.1 ++ sealed.2

/-- The original of a record from its file. -/
def decrypt (h : Host) (record : ArtifactRecord) (encrypted : Bytes) : Except String Bytes := do
  if encrypted.length < 34 ∨ encrypted.take 6 ≠ FORMAT then throw "artifact ciphertext format is invalid"
  let bytes ← h.cipher.open_ ((encrypted.drop 6).take 12) (aad record) ((encrypted.drop 18).take 16) (encrypted.drop 34)
  if bytes.length ≠ record.size ∨ h.sha256 bytes ≠ record.sha256 then throw "artifact original hash mismatch"
  return bytes

end Neurobro.Artifacts
