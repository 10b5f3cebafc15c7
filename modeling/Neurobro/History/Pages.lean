import Neurobro.Data.Results
import Neurobro.History.Records

/-! What a checkpoint and a page must be before they are kept: they are checked as a whole,
the public rows against the sources they come from. -/
namespace Neurobro.History

open Telegram

def require (p : Prop) [Decidable p] (e : String) : Except String Unit := if p then .ok () else .error e

theorem require_ok {p : Prop} [Decidable p] : require p e = .ok () ↔ p := by
  unfold require
  by_cases holds : p <;> simp [holds]

/-! Checkpoints. -/

/-- Each number is in its range. -/
def Checkpoint.Ranged (c : Checkpoint) : Prop :=
  userId c.accountId = true ∧ groupId c.chatId = true ∧ dateValid c.fromDate = true ∧ dateValid c.toDate = true ∧
    c.fromDate ≤ c.toDate ∧ dateValid c.lastDate = true ∧ c.fromDate ≤ c.lastDate ∧ c.lastDate ≤ c.toDate ∧
    (c.offsetId = 0 ∨ messageIdValid c.offsetId = true) ∧ c.oldestDate.all dateValid = true ∧
    c.newestDate.all dateValid = true ∧ natural c.undated = true ∧ natural c.pages = true ∧
    c.upperBoundMessageId.all messageIdValid = true

/-- The dates agree: the oldest one is the last one. -/
def Checkpoint.Dated (c : Checkpoint) : Prop :=
  c.oldestDate.isNone = c.newestDate.isNone ∧ c.oldestDate.all (fun oldest => decide (oldest = c.lastDate) &&
    c.newestDate.any fun newest => decide (oldest ≤ newest ∧ newest ≤ c.toDate)) = true ∧
    (c.oldestDate = none → c.lastDate = c.toDate)

/-- Either nothing was read or there is where it was read up to. -/
def Checkpoint.Placed (c : Checkpoint) : Prop :=
  (c.offsetId = 0 → c.upperBoundMessageId = none ∧ c.oldestDate = none ∧ c.undated = 0 ∧ c.lastDate = c.toDate ∧
    ¬(0 < c.pages ∧ c.status = .more)) ∧
  (c.offsetId ≠ 0 → c.pages ≠ 0 ∧ c.upperBoundMessageId.any (fun upper => decide (c.offsetId ≤ upper)) = true ∧
    ¬(c.oldestDate = none ∧ c.undated = 0))

def Checkpoint.Counted (c : Checkpoint) : Prop :=
  c.undated ≤ c.pages * 100 ∧ (c.pages = 0 → c.offsetId = 0 ∧ c.inexact = false ∧ (c.status = .more ∨ c.status = .inaccessible))

instance (c : Checkpoint) : Decidable c.Ranged := inferInstanceAs (Decidable (_ ∧ _))
instance (c : Checkpoint) : Decidable c.Dated := inferInstanceAs (Decidable (_ ∧ _))
instance (c : Checkpoint) : Decidable c.Placed := inferInstanceAs (Decidable (_ ∧ _))
instance (c : Checkpoint) : Decidable c.Counted := inferInstanceAs (Decidable (_ ∧ _))

def Checkpoint.Valid (c : Checkpoint) : Prop := c.Ranged ∧ c.Dated ∧ c.Placed ∧ c.Counted

instance (c : Checkpoint) : Decidable c.Valid := inferInstanceAs (Decidable (_ ∧ _))

def snapshotCheckpoint (c : Checkpoint) : Except String Checkpoint := do
  require c.Valid "input"
  return c

/-- Where every task starts. -/
def initial (i : Intent) : Checkpoint where
  accountId := i.accountId
  chatId := i.sourcePeerId
  fromDate := i.fromDate
  toDate := i.toDate
  offsetId := 0
  lastDate := i.toDate
  oldestDate := none
  newestDate := none
  undated := 0
  pages := 0
  inexact := false
  upperBoundMessageId := none
  status := .more

/-! Rows and their sources. -/

def smaller (oldest : Option Int) (date : Int) : Option Int := some (oldest.elim date (min · date))

def larger (newest : Option Int) (date : Int) : Option Int := some (newest.elim date (max · date))

def messageRefValid (ref : String) : Bool := hexRef "m_" 24 ref

def authorRefValid (ref : String) : Bool := ref == "neurobro" || hexRef "a_" 24 ref

def Forwarded.Valid (f : Forwarded) : Prop := dateValid f.originalDate = true ∧ f.sourceName.all (textValid · 128) = true

instance (f : Forwarded) : Decidable f.Valid := inferInstanceAs (Decidable (_ ∧ _))

def Message.Valid (m : Message) (before : Checkpoint) : Prop :=
  messageRefValid m.ref = true ∧ authorRefValid m.authorRef = true ∧ textValid m.displayName 512 = true ∧
    dateValid m.date = true ∧ before.fromDate ≤ m.date ∧ m.date ≤ before.toDate ∧ m.editedAt.all dateValid = true ∧
    m.replyRef.all messageRefValid = true ∧ ¬(m.replyRef.isSome = true ∧ m.replyUnavailable = true) ∧
    textValid m.text 16384 = true ∧ ∀ f ∈ m.forwarded, f.Valid

instance (m : Message) (before : Checkpoint) : Decidable (m.Valid before) := inferInstanceAs (Decidable (_ ∧ _))

/-- What the sources passed through so far come to. -/
structure Walk where
  offset : Int
  lastDate : Int
  oldest : Option Int
  newest : Option Int
  undated : Int
  counts : Excluded := {}
  included : List String := []
  authors : List (String × String) := []
  refs : List (Int × String) := []
  replies : List (Int × String) := []

def Walk.begin (before : Checkpoint) : Walk where
  offset := before.offsetId
  lastDate := before.lastDate
  oldest := before.oldestDate
  newest := before.newestDate
  undated := before.undated

/-- Older than everything so far, and not out of order by date. -/
def Source.Follows (s : Source) (before : Checkpoint) (w : Walk) : Prop :=
  messageIdValid s.messageId = true ∧ s.messageId < (if w.offset = 0 then 2147483648 else w.offset) ∧
    s.date.all (fun date => dateValid date && decide (before.fromDate ≤ date ∧ date ≤ w.lastDate)) = true

def Walk.pass (w : Walk) (s : Source) : Walk :=
  match s.date with
  | none => { w with
      offset := s.messageId
      undated := w.undated + 1 }
  | some date => { w with
      offset := s.messageId
      lastDate := date
      oldest := smaller w.oldest date
      newest := larger w.newest date }

/-- The row is the one the source is of. -/
def Source.MatchesRow (s : Source) (before : Checkpoint) (authorId : String) (m : Message) : Prop :=
  signedPeer authorId = true ∧ s.date = some m.date ∧ (m.author = .self ↔ authorId = before.accountId) ∧
    ¬(m.authorRef = "neurobro" ∧ (m.author ≠ .self ∨ authorId ≠ before.accountId)) ∧
    m.replyRef.isSome = s.replyToMessageId.isSome ∧
    s.replyToMessageId.all (fun reply => messageIdValid reply && decide (reply < s.messageId)) = true

/-- One name for each author and one author for each name. -/
def Walk.NamesAgree (w : Walk) (authorId authorRef : String) : Prop :=
  (∀ p ∈ w.authors, p.1 = authorId → p.2 = authorRef) ∧ ∀ p ∈ w.authors, p.2 = authorRef → p.1 = authorId

instance (s : Source) (before : Checkpoint) (w : Walk) : Decidable (s.Follows before w) := inferInstanceAs (Decidable (_ ∧ _))

instance (s : Source) (before : Checkpoint) (authorId : String) (m : Message) : Decidable (s.MatchesRow before authorId m) :=
  inferInstanceAs (Decidable (_ ∧ _))

instance (w : Walk) (authorId authorRef : String) : Decidable (w.NamesAgree authorId authorRef) :=
  inferInstanceAs (Decidable (_ ∧ _))

def Walk.include (w : Walk) (s : Source) (authorId : String) (m : Message) : Walk := { w with
  included := w.included ++ [m.ref]
  authors := (authorId,m.authorRef) :: w.authors
  refs := (s.messageId,m.ref) :: w.refs
  replies := w.replies ++ (s.replyToMessageId.bind fun reply => m.replyRef.map fun ref => (reply,ref)).toList }

def Excluded.count (x : Excluded) : Disposition → Excluded
  | .included => x
  | .nonText => { x with nonText := x.nonText + 1 }
  | .invalidText => { x with invalidText := x.invalidText + 1 }
  | .unavailable => { x with unavailable := x.unavailable + 1 }
  | .outsidePeriod => { x with outsidePeriod := x.outsidePeriod + 1 }

def Source.bare (s : Source) : Bool := s.messageRef.isNone && s.authorId.isNone && s.replyToMessageId.isNone

def rowOf (messages : List Message) (ref : Option String) : Option Message :=
  ref.bind fun ref => messages.find? fun m => m.ref = ref

/-- The step of one source. -/
def Walk.step (before : Checkpoint) (messages : List Message) (w : Walk) (s : Source) : Except String Walk := do
  require (s.Follows before w) "input"
  require (s.date.isSome = true ∨ s.disposition = .unavailable) "input"
  if s.disposition = .included then
    match rowOf messages s.messageRef,s.authorId with
    | some m,some authorId => do
      require (s.MatchesRow before authorId m) "input"
      require (w.NamesAgree authorId m.authorRef) "input"
      return (w.pass s).include s authorId m
    | _,_ => .error "input"
  else do
    require (s.bare = true) "input"
    return { w.pass s with counts := w.counts.count s.disposition }

def Walk.run (before : Checkpoint) (messages : List Message) (sources : List Source) : Except String Walk :=
  sources.foldlM (Walk.step before messages) (.begin before)

/-- A reply to a row that is here names it as it is named here. -/
def Walk.RepliesAgree (w : Walk) : Prop :=
  ∀ reply ∈ w.replies, (∀ p ∈ w.refs.find? (fun p => p.1 = reply.1), p.2 = reply.2) ∧
    ∀ p ∈ w.refs.find? (fun p => p.2 = reply.2), p.1 = reply.1

instance (w : Walk) : Decidable w.RepliesAgree := inferInstanceAs (Decidable (∀ reply ∈ w.replies,_))

/-! The page as a whole. -/

def Excluded.Valid (x : Excluded) : Prop :=
  (natural x.nonText = true ∧ x.nonText ≤ 100) ∧ (natural x.invalidText = true ∧ x.invalidText ≤ 100) ∧
    (natural x.unavailable = true ∧ x.unavailable ≤ 100) ∧ natural x.outsidePeriod = true ∧ x.outsidePeriod ≤ 100

instance (x : Excluded) : Decidable x.Valid := inferInstanceAs (Decidable (_ ∧ _))

/-- Both ends are of the same traversal, which was not over. -/
def Checkpoint.Continues (before next : Checkpoint) : Prop :=
  before.status = .more ∧ before.accountId = next.accountId ∧ before.chatId = next.chatId ∧
    before.fromDate = next.fromDate ∧ before.toDate = next.toDate ∧ ¬(before.inexact = true ∧ next.inexact = false)

def Checkpoint.Binds (before : Checkpoint) (i : Intent) : Prop :=
  before.accountId = i.accountId ∧ before.chatId = i.sourcePeerId ∧ before.fromDate = i.fromDate ∧ before.toDate = i.toDate

def terminal (status : Status) : Bool := status = .lowerBoundReached || status = .emptyPage

/-- The page says what its checkpoints say. -/
def Page.Reports (p : Page) (before next : Checkpoint) : Prop :=
  p.fromDate = before.fromDate ∧ p.toDate = before.toDate ∧ p.cursor = none ∧ p.status = next.status ∧
    p.hasMore = decide (p.status = .more) ∧ p.coverage.oldestExaminedDate = next.oldestDate ∧
    p.coverage.newestExaminedDate = next.newestDate ∧ p.coverage.undatedEntries = next.undated ∧
    p.coverage.pages = next.pages ∧
    p.coverage.traversalComplete = (terminal next.status && decide (next.undated = 0) && !next.inexact) ∧ p.excluded.Valid

/-- The sources lead from one checkpoint to the other and account for every row. -/
def TaskPage.Adds (t : TaskPage) (w : Walk) : Prop :=
  w.included.reverse = t.page.messages.map Message.ref ∧ w.counts = t.page.excluded ∧
    t.nextCheckpoint.offsetId = w.offset ∧ t.nextCheckpoint.lastDate = w.lastDate ∧ t.nextCheckpoint.oldestDate = w.oldest ∧
    t.nextCheckpoint.newestDate = w.newest ∧ t.nextCheckpoint.undated = w.undated ∧
    t.nextCheckpoint.upperBoundMessageId =
      t.beforeCheckpoint.upperBoundMessageId.or (t.sources.head?.map Source.messageId) ∧
    t.nextCheckpoint.pages = t.beforeCheckpoint.pages + (if t.nextCheckpoint.status = .inaccessible then 0 else 1) ∧
    ¬(t.nextCheckpoint.status = .more ∧ t.sources = []) ∧
    ¬((t.nextCheckpoint.status = .emptyPage ∨ t.nextCheckpoint.status = .inaccessible) ∧ t.sources ≠ []) ∧
    ¬(t.nextCheckpoint.status = .inaccessible ∧ t.nextCheckpoint.inexact ≠ t.beforeCheckpoint.inexact)

instance (before next : Checkpoint) : Decidable (before.Continues next) := inferInstanceAs (Decidable (_ ∧ _))
instance (before : Checkpoint) (i : Intent) : Decidable (before.Binds i) := inferInstanceAs (Decidable (_ ∧ _))
instance (p : Page) (before next : Checkpoint) : Decidable (p.Reports before next) := inferInstanceAs (Decidable (_ ∧ _))
instance (t : TaskPage) (w : Walk) : Decidable (t.Adds w) := inferInstanceAs (Decidable (_ ∧ _))

def maximumPageBytes : Nat := 128 * 1024

/-- A page is taken as a whole or not at all. A value of another shape is never one. -/
def snapshotPage (i : Intent) (t : TaskPage) : Except String TaskPage := do
  let before ← snapshotCheckpoint t.beforeCheckpoint
  let next ← snapshotCheckpoint t.nextCheckpoint
  require (before.Continues next) "input"
  require (before.Binds i) "binding"
  require (t.page.Reports before next) "input"
  require (t.page.messages.length ≤ 100 ∧ ∀ m ∈ t.page.messages,m.Valid before) "input"
  require (t.page.messages.map Message.ref).Nodup "input"
  require (t.sources.length ≤ 100) "input"
  let w ← Walk.run before t.page.messages t.sources
  require w.RepliesAgree "input"
  require (t.Adds w) "input"
  require (byteLength t.page.json ≤ 65536 ∧ byteLength t.json ≤ maximumPageBytes) "limit"
  return t

/-- What is taken is what was given. -/
theorem snapshotPage_same (taken : snapshotPage i t = .ok t') : t' = t := by
  unfold snapshotPage at taken
  repeat
    obtain ⟨_,_,rest⟩ := bind_ok taken
    clear taken
    rename' rest => taken
  exact (Except.ok.inj taken).symm

end Neurobro.History
