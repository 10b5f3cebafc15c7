import Neurobro.History.Recovery
import Neurobro.Learning.Records

/-! The store of the notes: one encrypted snapshot, replaced as a whole by every mutation, and
what is read from it. -/
namespace Neurobro.Learning

open History
open History.Recovery (sealedSize)

/-- What the platform computes: a digest, the compatibility form of a text in lower case, its runs of
letters and digits, and an order of texts in which a text is no other than itself. -/
structure Host where
  sha256 : String → String
  fold : String → String
  words : String → List String
  localeCompare : String → String → Int
  localeSame : ∀ text, localeCompare text text = 0

/-- Whose notes these are. -/
structure Site where
  accountId : String
  peerId : String
  workspaceId : String

/-- The ceilings a store is opened with. -/
structure Limits where
  maxEntries : Nat := defaultMaxEntries
  maxPlaintextBytes : Nat := defaultMaxPlain
  entriesFit : 1 ≤ maxEntries ∧ maxEntries ≤ defaultMaxEntries := by decide
  bytesFit : 1024 ≤ maxPlaintextBytes ∧ maxPlaintextBytes ≤ defaultMaxPlain := by decide

def sha (h : Host) (value : Json) : String := h.sha256 (Json.stringify numberText value)

def Site.binding (site : Site) : Json := .obj [("accountId",.str site.accountId),("peerId",.str site.peerId)]

def mutationRef (h : Host) (site : Site) (m : Mutation) : String :=
  sha h (.arr [.str domain,.str site.workspaceId,site.binding,.str m.actorId,.str m.requestRef,int m.messageId,.str m.callRef])

def mutationHash (h : Host) (m : Mutation) : String :=
  sha h (.arr [.str m.action.text,.str m.scope.text,.str m.key,nullable int m.expectedRevision,
    nullable (fun kind => .str kind.text) m.kind,nullable .str m.text])

/-! The state. -/

structure State where
  entries : List Entry := []
  retiredHeads : List RetiredHead := []
  sequence : Int := 0

def entryAt (slot : String) (entries : List Entry) : Option Entry := Keyed.get (·.slot) slot entries

def headAt (slot : String) (heads : List RetiredHead) : Option RetiredHead := Keyed.get (·.slot) slot heads

namespace State

def current (s : State) (slot : String) : Option Entry :=
  (entryAt slot s.entries).or ((headAt slot s.retiredHeads).map archivedAsEntry)

def prior (s : State) (ref : String) : Option Entry :=
  (s.entries ++ s.retiredHeads.map archivedAsEntry).find? fun entry => decide (entry.mutationRef = ref)

def envelopeValue (site : Site) (s : State) : Json :=
  .obj ([("domain",.str domain),("binding",site.binding),("workspaceId",.str site.workspaceId),("sequence",int s.sequence),
    ("entries",.arr (s.entries.map Entry.json))] ++
    (if s.retiredHeads.isEmpty then [] else [("retiredHeads",.arr (s.retiredHeads.map RetiredHead.json))]))

end State

/-- What the source language's `||` makes of two comparisons. -/
def either (first second : Int) : Int := if first ≠ 0 then first else second

def sorted (compare : α → α → Int) (items : List α) : List α := items.insertionSort fun a b => compare a b ≤ 0

/-- The oldest retired note that is not archived. -/
def reclaim (h : Host) (entries : List Entry) : Option Entry :=
  (sorted (fun a b => either (a.sequence - b.sequence) (h.localeCompare a.slot b.slot)) (entries.filter (·.retired))).head?

/-- Putting an entry in its place, an older note making room where there is none. -/
def place (h : Host) (limits : Limits) (s : State) (entry : Entry) : Except Code State :=
  let archived := if (headAt entry.slot s.retiredHeads).isSome then Keyed.delete (·.slot) entry.slot s.retiredHeads else s.retiredHeads
  if (headAt entry.slot s.retiredHeads).isSome ∧ entry.retired = true then
    .ok { s with retiredHeads := Keyed.set (·.slot) entry.toRetiredHead archived, sequence := s.sequence + 1 }
  else if (entryAt entry.slot s.entries).isNone ∧ limits.maxEntries ≤ s.entries.length then
    match reclaim h s.entries with
    | none => .error .limit
    | some old =>
      if defaultMaxArchivedRetired ≤ archived.length then .error .limit
      else .ok { entries := Keyed.set (·.slot) entry (Keyed.delete (·.slot) old.slot s.entries),
                 retiredHeads := Keyed.set (·.slot) old.toRetiredHead archived, sequence := s.sequence + 1 }
  else .ok { entries := Keyed.set (·.slot) entry s.entries, retiredHeads := archived, sequence := s.sequence + 1 }

/-- Nothing is there where nothing is expected, and otherwise exactly that revision. -/
def unexpected (expected : Option Int) (current : Option Entry) : Bool :=
  match expected with
  | none => current.isSome
  | some revision => !current.any fun entry => decide (entry.revision = revision)

def newEntry (h : Host) (site : Site) (s : State) (m : Mutation) : Entry :=
  let slot := slotFor m.scope m.actorId m.key
  { slot, key := m.key, scope := m.scope
    ownerActorId := if m.scope = .self then some m.actorId else none
    kind := ((if m.action = .retire then (s.current slot).map (·.kind) else m.kind).getD .preference)
    text := if m.action = .retire then none else m.text
    revision := ((s.current slot).map (·.revision)).getD 0 + 1
    sequence := s.sequence + 1
    retired := decide (m.action = .retire)
    mutationRef := mutationRef h site m
    mutationHash := mutationHash h m
    provenance := { requestRef := m.requestRef, messageId := m.messageId, actorId := m.actorId } }

inductive Plan where
  | repeated (prior : Entry)
  | change (entry : Entry) (next : State)

/-- What a mutation comes to before anything is written. -/
def plan (h : Host) (site : Site) (limits : Limits) (s : State) (m : Mutation) : Except Code Plan :=
  match s.prior (mutationRef h site m) with
  | some prior =>
    if prior.mutationHash ≠ mutationHash h m ∨ prior.slot ≠ slotFor m.scope m.actorId m.key then .error .conflict
    else .ok (.repeated prior)
  | none =>
    if unexpected m.expectedRevision (s.current (slotFor m.scope m.actorId m.key)) then .error .conflict
    else if 9007199254740991 ≤ s.sequence then .error .limit
    else if Telegram.safeInteger (newEntry h site s m).revision = false then .error .limit
    else (place h limits s (newEntry h site s m)).map (.change (newEntry h site s m))

/-! The file. -/

/-- The directory: the snapshot, whether a temporary file was left there and, for the record only, the
mutations whose snapshot was put in place. -/
structure Disk where
  file : Option Json := none
  residue : Bool := false
  log : List Mutation := []

/-- How writing ends: well, or with the first check failing, or before there is a temporary file, or with it
left behind, or with the snapshot replaced. -/
inductive Fate where
  | fine
  | guarded
  | kept
  | left
  | replaced
  deriving DecidableEq

def writeSnapshot (limits : Limits) (fate : Fate) (disk : Disk) (snapshot : Json) (m : Mutation) : Except Code Unit × Disk :=
  if fate = .guarded then (.error .storage,disk)
  else if limits.maxPlaintextBytes < Json.size numberText snapshot then (.error .limit,disk)
  else if maxCipher < sealedSize (Json.size numberText snapshot) then (.error .limit,disk)
  else match fate with
    | .guarded | .kept => (.error .storage,disk)
    | .left => (.error .storage,{ disk with residue := true })
    | .replaced => (.error .storage,{ disk with file := some snapshot, log := disk.log ++ [m] })
    | .fine => (.ok (),{ disk with file := some snapshot, log := disk.log ++ [m] })

def readEntries (sequence : Int) (entries : List Entry) : List Json → Except Code (List Entry)
  | [] => .ok entries
  | raw :: rest => do
    let entry ← entryCopy raw
    if sequence < entry.sequence ∨ (entryAt entry.slot entries).isSome then .error .storage
    else readEntries sequence (Keyed.set (·.slot) entry entries) rest

def readHeads (sequence : Int) (entries : List Entry) (heads : List RetiredHead) : List Json → Except Code (List RetiredHead)
  | [] => .ok heads
  | raw :: rest => do
    let head ← retiredHeadCopy raw
    if sequence < head.sequence ∨ (entryAt head.slot entries).isSome ∨ (headAt head.slot heads).isSome then .error .storage
    else readHeads sequence entries (Keyed.set (·.slot) head heads) rest

def itemsOf : Option Json → Except Code (List Json)
  | some (.arr items) => .ok items
  | _ => .error .storage

def sequenceOf : Option Json → Except Code Int
  | some (.num (.finite q)) => if q.den = 1 ∧ Telegram.natural q.num = true then .ok q.num else .error .storage
  | some (.num .negativeZero) => .ok 0
  | _ => .error .storage

/-- Archived heads are left out where there are none. -/
def archivedItems : Option Json → Except Code (List Json)
  | none => .ok []
  | value => itemsOf value

def sameText (value : Option Json) (text : String) : Bool := Json.strictEq value (some (.str text))

/-- Reading a snapshot back. -/
def restore (site : Site) (limits : Limits) (file : Json) : Except Code State := do
  if maxCipher < sealedSize (Json.size numberText file) ∨ defaultMaxPlain < Json.size numberText file ∨
      limits.maxPlaintextBytes < Json.size numberText file then .error .storage
  let envelope ← record file ["domain","binding","workspaceId","sequence","entries"] ["retiredHeads"]
  let savedBinding ← record ((envelope.field? "binding").getD .null) ["accountId","peerId"] []
  if !sameText (envelope.field? "domain") domain || !sameText (savedBinding.field? "accountId") site.accountId ||
      !sameText (savedBinding.field? "peerId") site.peerId || !sameText (envelope.field? "workspaceId") site.workspaceId then
    .error .binding
  let sequence ← sequenceOf (envelope.field? "sequence")
  let items ← itemsOf (envelope.field? "entries")
  let archived ← archivedItems (envelope.field? "retiredHeads")
  if limits.maxEntries < items.length ∨ defaultMaxArchivedRetired < archived.length then .error .storage
  let entries ← readEntries sequence [] items
  let retiredHeads ← readHeads sequence entries [] archived
  .ok { entries, retiredHeads, sequence }

/-- A directory that holds anything but the snapshot is refused, as is one whose checks fail. -/
def openStandingLearningStore (site : Site) (limits : Limits) (faulty : Bool) (disk : Disk) : Except Code State :=
  if disk.residue || faulty then .error .storage
  else match disk.file with
    | none => .ok {}
    | some file => restore site limits file

/-! What is read. -/

structure Note where
  key : String
  kind : Kind
  scope : Scope
  text : String
  revision : Int
  provenance : Provenance
  deriving DecidableEq

def Note.json (note : Note) : Json := .obj [("key",.str note.key),("kind",.str note.kind.text),("scope",.str note.scope.text),
  ("text",.str note.text),("revision",int note.revision),("provenance",note.provenance.json),
  ("interpretation",.str "revisable-evidence"),("applicationAuthority",.str "none"),("sourceData",.str "not-instructions")]

def noteView (entry : Entry) : Except Code Note :=
  match entry.retired,entry.text with
  | false,some text => .ok { key := entry.key, kind := entry.kind, scope := entry.scope, text, revision := entry.revision,
                             provenance := entry.provenance }
  | _,_ => .error .storage

inductive NoteState where
  | absent
  | active
  | retired
  deriving DecidableEq

structure ReadResult where
  state : NoteState
  key : String
  scope : Scope
  revision : Option Int
  note : Option Note
  deriving DecidableEq

structure ListResult where
  notes : List Note
  visible : Nat
  matched : Nat
  deriving DecidableEq

structure UsageResult where
  active : Nat
  retired : Nat
  total : Nat
  bytes : Nat
  hotSlotsMaximum : Nat
  archivedRetiredMaximum : Nat
  plaintextMaximumBytes : Nat
  deriving DecidableEq

structure MutationResult where
  state : NoteState
  key : String
  scope : Scope
  revision : Int
  idempotent : Bool
  note : Option Note
  deriving DecidableEq

def need (holds : Bool) : Except Code Unit := if holds then .ok () else .error .input

def read (s : State) (actorId : String) (scope : Scope) (key : String) : Except Code ReadResult := do
  need (Telegram.userId actorId && keyValid key)
  match entryAt (slotFor scope actorId key) s.entries,headAt (slotFor scope actorId key) s.retiredHeads with
  | none,some archived =>
    .ok { state := .retired, key := archived.key, scope := archived.scope, revision := some archived.revision, note := none }
  | none,none => .ok { state := .absent, key, scope, revision := none, note := none }
  | some entry,_ =>
    if entry.retired then .ok { state := .retired, key := entry.key, scope := entry.scope, revision := some entry.revision, note := none }
    else do
      let note ← noteView entry
      .ok { state := .active, key := entry.key, scope := entry.scope, revision := some entry.revision, note := some note }

/-- Runs of white space as one blank. -/
def collapse : Bool → List Char → List Char
  | _,[] => []
  | gap,c :: rest =>
    if Agent.isSpace c then (if gap then collapse true rest else ' ' :: collapse true rest) else c :: collapse false rest

def normalized (h : Host) (value : String) : String := Agent.trim (String.ofList (collapse false (h.fold value).toList))

def tokens (h : Host) (value : String) : List String :=
  (h.words (normalized h value)).eraseDups.filter fun token => decide (token ≠ "")

def startsWith (text start : String) : Bool := start.toList.isPrefixOf text.toList

def includes (text part : String) : Bool := text.toList.tails.any part.toList.isPrefixOf

def tokenScore (keyNormalized kindNormalized : String) (fields : List String) (fieldTokens : List (List String)) (token : String) : Nat :=
  if keyNormalized = token ∨ kindNormalized = token then 16
  else if fieldTokens.any (·.contains token) then 10
  else if fieldTokens.any (·.any fun value => startsWith value token || startsWith token value) then 5
  else if fields.any (includes · token) then 2
  else 0

structure Scored where
  entry : Entry
  score : Nat
  matchedTokens : Nat

def Kind.bonus (kind : Kind) : Nat := if kind = .preference then 1 else 0

def scored (h : Host) (query : Option String) (entry : Entry) : Scored :=
  let keyNormalized := normalized h entry.key
  let kindNormalized := normalized h entry.kind.text
  let fields := [keyNormalized,kindNormalized,normalized h (entry.text.getD "")]
  let queryNormalized := query.map (normalized h)
  let queryTokens := (query.map (tokens h)).getD []
  let whole := if queryNormalized.any fields.contains then 64
    else if queryNormalized.any fun q => fields.any (includes · q) then 24 else 0
  let scores := queryTokens.map (tokenScore keyNormalized kindNormalized fields (fields.map (tokens h)))
  let matchedTokens := scores.countP (· ≠ 0)
  let complete := if queryTokens ≠ [] ∧ matchedTokens = queryTokens.length then 12 else 0
  { entry, score := whole + scores.foldl (· + ·) 0 + complete + entry.kind.bonus, matchedTokens }

def compareScored (h : Host) (a b : Scored) : Int :=
  either ((b.matchedTokens : Int) - a.matchedTokens) (either ((b.score : Int) - a.score)
    (either (b.entry.sequence - a.entry.sequence) (h.localeCompare a.entry.slot b.entry.slot)))

def visibleTo (actorId : String) (head : RetiredHead) : Bool :=
  decide (head.scope = .team) || decide (head.ownerActorId = some actorId)

def limitValid (limit : Option Int) : Bool := limit.all fun n => decide (1 ≤ n ∧ n ≤ 16)

def limitOf (limit : Option Int) : Nat := (limit.getD 8).toNat

def list (h : Host) (s : State) (actorId : String) (query : Option String) (limit : Option Int) : Except Code ListResult := do
  need (Telegram.userId actorId && query.all (cleanText · maxQueryBytes) && limitValid limit)
  let visible := s.entries.filter fun entry => !entry.retired && visibleTo actorId entry.toRetiredHead
  let matching := (visible.map (scored h query)).filter fun item => query.isNone || decide (item.entry.kind.bonus < item.score)
  let notes ← ((sorted (compareScored h) matching).take (limitOf limit)).mapM fun item => noteView item.entry
  .ok { notes, visible := visible.length, matched := matching.length }

def compareRecent (h : Host) (a b : Entry) : Int := either (b.sequence - a.sequence) (h.localeCompare a.slot b.slot)

def duplicates (h : Host) (s : State) (actorId : String) (scope : Scope) (kind : Kind) (text : String) (limit : Option Int) :
    Except Code ListResult := do
  need (Telegram.userId actorId && cleanText text maxTextBytes && limitValid limit)
  let visible := s.entries.filter fun entry => !entry.retired && decide (entry.scope = scope) && visibleTo actorId entry.toRetiredHead
  let matching := visible.filter fun entry =>
    decide (entry.kind = kind) && decide (normalized h (entry.text.getD "") = normalized h text)
  let notes ← ((sorted (compareRecent h) matching).take (limitOf limit)).mapM noteView
  .ok { notes, visible := visible.length, matched := matching.length }

def retiredJson (head : RetiredHead) : Json :=
  .obj [("key",.str head.key),("scope",.str head.scope.text),("revision",int head.revision)]

def usage (h : Host) (limits : Limits) (s : State) (actorId : String) : Except Code UsageResult := do
  need (Telegram.userId actorId)
  let hot := sorted (fun a b => h.localeCompare a.slot b.slot) (s.entries.filter fun entry => visibleTo actorId entry.toRetiredHead)
  let archived := sorted (fun a b => h.localeCompare a.slot b.slot) (s.retiredHeads.filter (visibleTo actorId))
  let active ← (hot.filter (!·.retired)).mapM noteView
  let retired := (hot.filter (·.retired)).map Entry.toRetiredHead ++ archived
  .ok { active := active.length, retired := hot.length - active.length + archived.length
        total := active.length + (hot.length - active.length + archived.length)
        bytes := Json.size numberText (.obj [("active",.arr (active.map Note.json)),("retired",.arr (retired.map retiredJson))])
        hotSlotsMaximum := limits.maxEntries, archivedRetiredMaximum := defaultMaxArchivedRetired
        plaintextMaximumBytes := limits.maxPlaintextBytes }

/-! Calls on an open store, and openings. -/

structure Handle where
  limits : Limits
  state : State
  closed : Bool := false
  broken : Bool := false

inductive Call where
  | read (actorId : String) (scope : Scope) (key : String)
  | list (actorId : String) (query : Option String) (limit : Option Int)
  | duplicates (actorId : String) (scope : Scope) (kind : Kind) (text : String) (limit : Option Int)
  | usage (actorId : String)
  | mutate (input : Option Mutation) (fate : Fate)
  | close

inductive Answer where
  | read (result : ReadResult)
  | list (result : ListResult)
  | usage (result : UsageResult)
  | mutated (result : MutationResult)
  | opened
  | closed
  deriving DecidableEq

abbrev Reply := Except Code Answer

def mutationResult (entry : Entry) (idempotent : Bool) : Except Code MutationResult := do
  let note ← if entry.retired then .ok none else (noteView entry).map some
  .ok { state := if entry.retired then .retired else .active, key := entry.key, scope := entry.scope, revision := entry.revision,
        idempotent, note }

structure System where
  disk : Disk := {}
  handle : Option Handle := none

/-- Writing what a mutation comes to; a failure that is no limit breaks the store. -/
def commit (site : Site) (hd : Handle) (disk : Disk) (m : Mutation) (fate : Fate) (entry : Entry) (next : State) : Reply × System :=
  match writeSnapshot hd.limits fate disk (next.envelopeValue site) m with
  | (.ok (),disk) => ((mutationResult entry false).map .mutated,{ disk, handle := some { hd with state := next } })
  | (.error .limit,disk) => (.error .limit,{ disk, handle := some hd })
  | (.error code,disk) => (.error code,{ disk, handle := some { hd with broken := true } })

def mutate (h : Host) (site : Site) (hd : Handle) (disk : Disk) (input : Option Mutation) (fate : Fate) : Reply × System :=
  match mutationCopy input with
  | .error code => (.error code,{ disk, handle := some hd })
  | .ok m =>
    match plan h site hd.limits hd.state m with
    | .error code => (.error code,{ disk, handle := some hd })
    | .ok (.repeated prior) => ((mutationResult prior true).map .mutated,{ disk, handle := some hd })
    | .ok (.change entry next) => commit site hd disk m fate entry next

/-- Closing twice is fine; nothing else is. -/
def closedReply : Call → Reply
  | .close => .ok .closed
  | _ => .error .closed

/-- A call on an open store; calls wait for one another. -/
def Handle.call (h : Host) (site : Site) (hd : Handle) (disk : Disk) (call : Call) : Reply × System :=
  if hd.closed then (closedReply call,{ disk, handle := some hd })
  else match call with
    | .close => (.ok .closed,{ disk, handle := some { hd with closed := true, state := {} } })
    | .mutate input fate => if hd.broken then (.error .storage,{ disk, handle := some hd }) else mutate h site hd disk input fate
    | .read actorId scope key =>
      (if hd.broken then .error .storage else (read hd.state actorId scope key).map .read,{ disk, handle := some hd })
    | .list actorId query limit =>
      (if hd.broken then .error .storage else (list h hd.state actorId query limit).map .list,{ disk, handle := some hd })
    | .duplicates actorId scope kind text limit =>
      (if hd.broken then .error .storage else (duplicates h hd.state actorId scope kind text limit).map .list,
        { disk, handle := some hd })
    | .usage actorId =>
      (if hd.broken then .error .storage else (usage h hd.limits hd.state actorId).map .usage,{ disk, handle := some hd })

inductive Op where
  | open_ (limits : Limits) (faulty : Bool)
  | call (call : Call)

/-- One step: opening lets go of what was open before; without an open store there is nothing to call. -/
def step (h : Host) (site : Site) (sys : System) (op : Op) : Reply × System :=
  match op with
  | .open_ limits faulty =>
    match openStandingLearningStore site limits faulty sys.disk with
    | .error code => (.error code,{ disk := sys.disk, handle := none })
    | .ok state => (.ok .opened,{ disk := sys.disk, handle := some { limits, state } })
  | .call call =>
    match sys.handle with
    | none => (.error .closed,sys)
    | some hd => hd.call h site sys.disk call

def after (h : Host) (site : Site) (ops : List Op) : System := ops.foldl (fun sys op => (step h site sys op).2) {}

end Neurobro.Learning
