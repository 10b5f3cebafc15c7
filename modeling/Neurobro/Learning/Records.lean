import Neurobro.Agent.Text
import Neurobro.Data.JsonSize
import Neurobro.Data.Keyed
import Neurobro.Data.Results
import Neurobro.History.Records

/-! The notes a workspace has learnt: the records that are kept and the checks they pass when
they come in and when they are read back. -/
namespace Neurobro.Learning

open History Telegram

inductive Code where
  | input
  | binding
  | conflict
  | limit
  | storage
  | closed
  deriving DecidableEq

inductive Kind where
  | preference
  | lesson
  | procedure
  | decision
  deriving DecidableEq

def Kind.text : Kind → String
  | .preference => "preference"
  | .lesson => "lesson"
  | .procedure => "procedure"
  | .decision => "decision"

inductive Scope where
  | self
  | team
  deriving DecidableEq

def Scope.text : Scope → String
  | .self => "self"
  | .team => "team"

structure Provenance where
  requestRef : String
  messageId : Int
  actorId : String
  deriving DecidableEq

/-- What stays of a retired note once it is archived. -/
structure RetiredHead where
  slot : String
  key : String
  kind : Kind
  scope : Scope
  ownerActorId : Option String
  revision : Int
  sequence : Int
  mutationRef : String
  mutationHash : String
  deriving DecidableEq

structure Entry extends RetiredHead where
  text : Option String
  retired : Bool
  provenance : Provenance
  deriving DecidableEq

inductive Action where
  | save
  | retire
  deriving DecidableEq

def Action.text : Action → String
  | .save => "save"
  | .retire => "retire"

structure Mutation where
  actorId : String
  requestRef : String
  messageId : Int
  callRef : String
  action : Action
  scope : Scope
  key : String
  expectedRevision : Option Int
  kind : Option Kind := none
  text : Option String := none
  deriving DecidableEq

/-! The checks. -/

def domain : String := "DecadansNeurobro/standing-learning-store/v1"

def defaultMaxEntries : Nat := 256

def defaultMaxArchivedRetired : Nat := 2048

def defaultMaxPlain : Nat := 1048576

def maxCipher : Nat := 2097152

def maxTextBytes : Nat := 4096

def maxQueryBytes : Nat := 256

def control (c : Char) : Bool := c.toNat ≤ 0x1f || (0x7f ≤ c.toNat && c.toNat ≤ 0x9f)

def cleanText (value : String) (maximumBytes : Nat) : Bool :=
  decide (value ≠ "") && decide (Agent.trim value = value) && !value.toList.any control && decide (value.utf8ByteSize ≤ maximumBytes)

def alphanumeric (c : Char) : Bool := c.isDigit || decide ('a' ≤ c ∧ c ≤ 'z')

def keyChar (c : Char) : Bool := alphanumeric c || ['.','_',':','-'].contains c

/-- At most 96 characters, letters or digits at both ends. -/
def keyValid (key : String) : Bool :=
  key.toList.all keyChar && key.toList.head?.any alphanumeric && key.toList.getLast?.any alphanumeric &&
    decide (key.toList.length ≤ 96)

def revisionValid (n : Int) : Bool := safeInteger n && decide (1 ≤ n)

def reference (value : String) : Bool := cleanText value 256 && !value.toList.any Agent.isSpace

def hex64 (value : String) : Bool := hexRef "" 64 value

def slotFor (scope : Scope) (actorId key : String) : String :=
  match scope with
  | .team => "team:" ++ key
  | .self => "self:" ++ actorId ++ ":" ++ key

def ownerFits (scope : Scope) (owner : Option String) : Bool :=
  match scope with
  | .self => owner.any userId
  | .team => owner.isNone

def Provenance.valid (p : Provenance) : Bool := reference p.requestRef && messageIdValid p.messageId && userId p.actorId

/-- What an entry and an archived head are both checked for; the actor stands in where a note has no owner. -/
def RetiredHead.fits (head : RetiredHead) (actorId : String) : Bool :=
  keyValid head.key && ownerFits head.scope head.ownerActorId && revisionValid head.revision && revisionValid head.sequence &&
    hex64 head.mutationRef && hex64 head.mutationHash &&
    decide (head.slot = slotFor head.scope (head.ownerActorId.getD actorId) head.key)

def RetiredHead.valid (head : RetiredHead) : Bool := head.fits "1"

def textFits (retired : Bool) (text : Option String) : Bool :=
  if retired then text.isNone else text.any (cleanText · maxTextBytes)

def Entry.valid (entry : Entry) : Bool :=
  textFits entry.retired entry.text && entry.provenance.valid && entry.toRetiredHead.fits entry.provenance.actorId

def archivedAsEntry (head : RetiredHead) : Entry :=
  { head with text := none, retired := true,
              provenance := { requestRef := "archived", messageId := 1, actorId := head.ownerActorId.getD "1" } }

/-- A note that is saved has a kind and a text; one that is retired has neither, and is known. -/
def Mutation.actionFits (m : Mutation) : Bool :=
  match m.action with
  | .save => m.kind.isSome && m.text.any (cleanText · maxTextBytes)
  | .retire => m.kind.isNone && m.text.isNone && m.expectedRevision.isSome

def Mutation.valid (m : Mutation) : Bool :=
  userId m.actorId && reference m.requestRef && messageIdValid m.messageId && reference m.callRef && keyValid m.key &&
    m.expectedRevision.all revisionValid && m.actionFits

/-- What is not of the shape of a mutation comes as none. -/
def mutationCopy (value : Option Mutation) : Except Code Mutation :=
  match value with
  | none => .error .input
  | some m => if m.valid then .ok m else .error .input

/-! The records as they are written. -/

def Provenance.json (p : Provenance) : Json :=
  .obj [("requestRef",.str p.requestRef),("messageId",int p.messageId),("actorId",.str p.actorId)]

def RetiredHead.fields (head : RetiredHead) : List (String × Json) :=
  [("slot",.str head.slot),("key",.str head.key),("kind",.str head.kind.text),("scope",.str head.scope.text),
    ("ownerActorId",nullable .str head.ownerActorId),("revision",int head.revision),("sequence",int head.sequence),
    ("mutationRef",.str head.mutationRef),("mutationHash",.str head.mutationHash)]

def RetiredHead.json (head : RetiredHead) : Json := .obj head.fields

def Entry.json (entry : Entry) : Json := .obj (entry.toRetiredHead.fields ++
  [("text",nullable .str entry.text),("retired",.bool entry.retired),("provenance",entry.provenance.json)])

/-! Reading them back. -/

def record (value : Json) (required optional : List String) : Except Code Json :=
  match value with
  | .obj fields =>
    if required.all (fun key => (fields.map Prod.fst).contains key) && (fields.map Prod.fst).all (required ++ optional).contains
    then .ok (.obj fields) else .error .input
  | _ => .error .input

def textOf : Option Json → Except Code String
  | some (.str s) => .ok s
  | _ => .error .input

def textOrNull : Option Json → Except Code (Option String)
  | some .null => .ok none
  | some (.str s) => .ok (some s)
  | _ => .error .input

def whole : Option Json → Except Code Int
  | some (.num (.finite q)) => if q.den = 1 then .ok q.num else .error .input
  | some (.num .negativeZero) => .ok 0
  | _ => .error .input

def flag : Option Json → Except Code Bool
  | some (.bool b) => .ok b
  | _ => .error .input

def kindOf : Option Json → Except Code Kind
  | some (.str s) =>
    match [Kind.preference,.lesson,.procedure,.decision].find? fun kind => decide (kind.text = s) with
    | some kind => .ok kind
    | none => .error .input
  | _ => .error .input

def scopeOf : Option Json → Except Code Scope
  | some (.str s) => if s = "self" then .ok .self else if s = "team" then .ok .team else .error .input
  | _ => .error .input

def provenanceCopy (value : Option Json) : Except Code Provenance := do
  let item ← record (value.getD .null) ["requestRef","messageId","actorId"] []
  let requestRef ← textOf (item.field? "requestRef")
  let messageId ← whole (item.field? "messageId")
  let actorId ← textOf (item.field? "actorId")
  let provenance : Provenance := { requestRef, messageId, actorId }
  if provenance.valid then .ok provenance else .error .input

/-- The properties an entry and an archived head share. -/
def headOf (item : Json) : Except Code RetiredHead := do
  let slot ← textOf (item.field? "slot")
  let key ← textOf (item.field? "key")
  let kind ← kindOf (item.field? "kind")
  let scope ← scopeOf (item.field? "scope")
  let ownerActorId ← textOrNull (item.field? "ownerActorId")
  let revision ← whole (item.field? "revision")
  let sequence ← whole (item.field? "sequence")
  let mutationRef ← textOf (item.field? "mutationRef")
  let mutationHash ← textOf (item.field? "mutationHash")
  .ok { slot, key, kind, scope, ownerActorId, revision, sequence, mutationRef, mutationHash }

def entryCopy (value : Json) : Except Code Entry := do
  let item ← record value ["slot","key","kind","scope","ownerActorId","text","revision","sequence","retired","mutationRef",
    "mutationHash","provenance"] []
  let head ← headOf item
  let text ← textOrNull (item.field? "text")
  let retired ← flag (item.field? "retired")
  let provenance ← provenanceCopy (item.field? "provenance")
  let entry : Entry := { head with text, retired, provenance }
  if entry.valid then .ok entry else .error .input

def retiredHeadCopy (value : Json) : Except Code RetiredHead := do
  let item ← record value ["slot","key","kind","scope","ownerActorId","revision","sequence","mutationRef","mutationHash"] []
  let head ← headOf item
  if head.valid then .ok head else .error .input

/-! What is written is read back. -/

theorem textOf_str (s : String) : textOf (some (.str s)) = .ok s := rfl

theorem textOrNull_nullable (value : Option String) : textOrNull (some (nullable .str value)) = .ok value := by
  cases value <;> rfl

theorem whole_int (n : Int) : whole (some (int n)) = .ok n := by
  simp [whole,int]

theorem kindOf_text (kind : Kind) : kindOf (some (.str kind.text)) = .ok kind := by
  cases kind <;> decide

theorem scopeOf_text (scope : Scope) : scopeOf (some (.str scope.text)) = .ok scope := by
  cases scope <;> decide

/-- A record with the properties of a head is read as that head. -/
theorem headOf_fields {item : Json} (has : ∀ f ∈ head.fields, item.field? f.1 = some f.2) : headOf item = .ok head:= by
  simp only [RetiredHead.fields,List.forall_mem_cons] at has
  obtain ⟨slot,key,kind,scope,owner,revision,sequence,mutationRef,mutationHash,_⟩ := has
  simp only [headOf,slot,key,kind,scope,owner,revision,sequence,mutationRef,mutationHash,textOf_str,textOrNull_nullable,whole_int,
    kindOf_text,scopeOf_text]
  rfl

theorem provenanceCopy_json (valid : p.valid = true) : provenanceCopy (some p.json) = .ok p := by
  have shape : record p.json ["requestRef","messageId","actorId"] [] = .ok p.json := by simp [record,Provenance.json]
  have fields : p.json.field? "requestRef" = some (.str p.requestRef) ∧ p.json.field? "messageId" = some (int p.messageId) ∧
      p.json.field? "actorId" = some (.str p.actorId) := by simp [Provenance.json,Json.field?]
  simp only [provenanceCopy,Option.getD_some,shape,fields,textOf_str,whole_int,bind,Except.bind,valid,if_true]

theorem retiredHeadCopy_json (valid : head.valid = true) : retiredHeadCopy head.json = .ok head := by
  have shape : record head.json ["slot","key","kind","scope","ownerActorId","revision","sequence","mutationRef","mutationHash"] [] =
      .ok head.json := by simp [record,RetiredHead.json,RetiredHead.fields]
  have read : headOf head.json = .ok head := by
    apply headOf_fields
    simp [RetiredHead.json,RetiredHead.fields,Json.field?]
  simp only [retiredHeadCopy,shape,read,bind,Except.bind,valid,if_true]

theorem entryCopy_json {entry : Entry} (valid : entry.valid = true) : entryCopy entry.json = .ok entry := by
  have shape : record entry.json ["slot","key","kind","scope","ownerActorId","text","revision","sequence","retired","mutationRef",
      "mutationHash","provenance"] [] = .ok entry.json := by simp [record,Entry.json,RetiredHead.fields]
  have read : headOf entry.json = .ok entry.toRetiredHead := by
    apply headOf_fields
    simp [Entry.json,RetiredHead.fields,Json.field?]
  have rest : entry.json.field? "text" = some (nullable .str entry.text) ∧ entry.json.field? "retired" = some (.bool entry.retired) ∧
      entry.json.field? "provenance" = some entry.provenance.json := by
    simp [Entry.json,RetiredHead.fields,Json.field?]
  have from_ : entry.provenance.valid = true := by
    simp only [Entry.valid,Bool.and_eq_true] at valid
    exact valid.1.2
  simp only [entryCopy,shape,read,rest,textOrNull_nullable,flag,provenanceCopy_json from_,bind,Except.bind,valid,if_true]

end Neurobro.Learning
