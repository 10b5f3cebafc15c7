import Neurobro.Coop.Histories
import Neurobro.Coop.Runs
import Neurobro.Agent.Work

/-! The discipline of the agent's processes: what the store and the history agree on
between any two commits, and what a fiber must have established before it reserves,
submits, records a run or dispatches. -/
namespace Neurobro.Agent

open Coop

abbrev Instant (o : Options) := Core (agent o)

variable {o : Options}

/-! ## Marks in the history -/

def dispatches (id : EffectId) : Event (agent o) → Bool
  | .call _ (Call.dispatch e _) => e.id = id
  | _ => false

def submits (key : AdmissionKey) : Event (agent o) → Bool
  | .call _ (Call.submit input) => (input.taskId,input.intentRevision) = key
  | _ => false

def reserves (i : Nat) (key : AdmissionKey) : Event (agent o) → Prop
  | .act j (Cmd.reserve a) won => j = i ∧ a.admissionKey = key ∧ won = true
  | _ => False

def issues (token : Token) (context : ToolContext) : Event (agent o) → Prop
  | .act _ (Cmd.issue issued) result => issued = context ∧ result = .ok token
  | _ => False

/-- A transaction that takes the task's present authority away. -/
def withdraws (T : TaskId) : Event (agent o) → Prop
  | .act _ (Cmd.cancelTask T') result => T' = T ∧ result = .ok ()
  | .act _ (Cmd.holdTask T' _ _) result => T' = T ∧ result = .ok ()
  | .act _ (Cmd.narrowGrant T' _) result => T' = T ∧ result = .ok ()
  | .act _ (Cmd.correctTask request) result => request.taskId = T ∧ ∃ corrected, result = .ok corrected
  | _ => False

/-- Replies of the engine that carry a snapshot. -/
def Call.answers : (q : Call) → q.Reply → RunSnapshot → Prop
  | .submit _,reply,snapshot => reply = .ok snapshot
  | .inspect _,reply,snapshot => reply = .ok snapshot
  | .cancel _,reply,snapshot => reply = .ok snapshot
  | _,_,_ => False

def returns (snapshot : RunSnapshot) : Event (agent o) → Prop
  | .reply _ q r => Call.answers q r snapshot
  | _ => False

/-! ## Admissions and runs -/

/-- The fiber owns the admission of this revision and has not resolved it. -/
structure Holds (i : Nat) (key : AdmissionKey) (c : Instant o) : Prop where
  reserved : c.Happened (reserves i key)
  unresolved : ∃ a, c.state.store.admissions.get key = some a ∧ a.state.unresolved

/-- The run on record for this revision, by its engine name. -/
def HasRun (key : AdmissionKey) (runId : RunId) (c : Instant o) : Prop :=
  ∃ run, c.state.store.runs.get key = some run ∧ run.binding.runId = runId

/-- The engine has returned a terminal snapshot of the run on record. -/
def Finished (key : AdmissionKey) (c : Instant o) : Prop :=
  ∃ snapshot, HasRun key snapshot.binding.runId c ∧ snapshot.binding.admissionKey = key ∧
    terminal snapshot.state ∧ c.Happened (returns snapshot)

def Closed (key : AdmissionKey) (c : Instant o) : Prop :=
  ∃ a, c.state.store.admissions.get key = some a ∧
    ((a.state = .blocked ∧ ¬c.Happened (submits key ·)) ∨ (a.state = .bound ∧ Finished key c))

/-- Nothing admitted for an earlier revision can still be running. -/
structure PriorClosed (T : TaskId) (revision : Nat) (c : Instant o) : Prop where
  reached : ∃ intent, c.state.store.tasks.get T = some intent ∧ revision ≤ intent.revision
  closed : ∀ q, q < revision → (c.state.store.admissions.get (T,q)).isSome → Closed (T,q) c

/-! ## Effects -/

/-- The authority a dispatch is made under, all of it current. -/
structure Authorized (o : Options) (token : Token) (effect : Effect) (s : State) : Prop where
  current : ∃ record intent grant, s.store.contexts.get token = some record ∧
    record.context.Same ⟨effect.taskId,effect.intentRevision,effect.grantId,effect.grantRevision,""⟩ ∧
    s.authority.Current effect.taskId intent grant ∧ intent.revision = effect.intentRevision ∧
    intent.grantId = effect.grantId ∧ grant.id = effect.grantId ∧ grant.revision = effect.grantRevision ∧
    grant.revokedAt = none ∧ s.passed grant.expiresAt = false ∧
    permits o grant effect.capability effect.resource ∧
    s.originResourceAllowed o intent effect.capability effect.resource

/-! ## Public drafts -/

/-- Ordinary speech of the owner: authenticated, not the agent's own, and no command. -/
structure Speech (o : Options) (s : State) (obs : Observation) : Prop where
  kind : obs.kind = .message
  stamped : obs.sentAt.isSome ∧ obs.observedAt.isSome
  authentic : authenticate o obs
  notOwn : s.ownOutput o obs = none
  noCommand : beginsWithQuotedCommand obs.authorityTextRanges obs.text o.prefixText ∨
    ((afterPrefix o.fold o.prefixText (authoredText obs (isNatural o obs))) = none ∧
      isNatural o obs = false ∧ (obs.replyTo.bind fun ref => s.store.ownOutputs.get (refKey ref)) = none ∧
      obs.replyTo.bind s.taskForSource = none)

/-- The drafts that the handling of owner speech looks at. -/
structure Draft (o : Options) (s : State) (obs : Observation) (T : TaskId) (intent : TaskIntent)
    (grant : Grant) : Prop where
  unquoted : beginsWithQuotedCommand obs.authorityTextRanges obs.text o.prefixText = false
  current : s.authority.Current T intent grant
  source : intent.source.peerId = obs.ref.peerId
  public' : intent.route.peerId ≠ o.privateRoute.peerId
  other : sameRef intent.source obs.ref = false
  live : grant.revokedAt = none

def Reviewed (o : Options) (obs : Observation) (s : State) : Prop :=
  Speech o s obs → ∀ T intent grant, Draft o s obs T intent grant → (s.store.originReview.get T).isSome

/-! ## The rules -/

def Guard (i : Nat) : Cmd → Instant o → Prop
  | .reserve a,c => a.state = .reserved ∧
      ∃ intent, c.state.store.tasks.get a.taskId = some intent ∧ intent.revision = a.revision
  | .putAdmission a,c => Holds i a.admissionKey c ∧
      (a.state = .blocked → ¬c.Happened (submits a.admissionKey ·)) ∧
      (a.state = .bound → (c.state.store.runs.get a.admissionKey).isSome)
  | .putRun key snapshot,c => snapshot.binding.admissionKey = key ∧
      (HasRun key snapshot.binding.runId c ∨
        (c.state.store.runs.get key = none ∧ c.Happened (reserves i key))) ∧
      (terminal snapshot.state → c.Happened (returns snapshot))
  | .correctTask request,c => c.state.changeApplied request = false
  | .note (.handled obs _),c => Reviewed o obs c.state
  | _,_ => True

def CallGuard (i : Nat) : Call → Instant o → Prop
  | .submit input,c =>
      Holds i (input.taskId,input.intentRevision) c ∧
      ¬c.Happened (submits (input.taskId,input.intentRevision) ·) ∧
      PriorClosed input.taskId input.intentRevision c ∧
      ∃ intent grant, c.state.authority.Current input.taskId intent grant ∧ grant.revokedAt = none
  | .dispatch effect token,c =>
      ¬c.Happened (dispatches effect.id ·) ∧ (c.state.store.effects.get effect.id).isSome ∧
      Authorized o token effect c.state
  | _,_ => True

def ToolContext.stamp (context : ToolContext) : Ledger.Stamp TaskId GrantId :=
  ⟨context.taskId,context.grantId,context.grantRevision⟩

structure Orderly (o : Options) (c : Instant o) : Prop where
  authority : c.state.authority.Valid o
  issued : ∀ token context, c.Happened (issues token context) → token < c.state.fresh ∧
    (∃ record, c.state.store.contexts.get token = some record ∧ record.context.Same context) ∧
    c.state.authority.ledger.Dated context.stamp
  withdrawn : ∀ token context, c.Followed (issues token context) (withdraws context.taskId) →
    c.state.authority.ledger.Spent context.stamp
  dispatched : ∀ id, c.Happened (dispatches id ·) → (c.state.store.effects.get id).isSome
  dispatchedOnce : ∀ id, c.AtMostOnce (dispatches id)
  reserved : ∀ i key, c.Happened (reserves i key) → (c.state.store.admissions.get key).isSome
  reservedOnce : ∀ i j key, c.Happened (reserves i key) → c.Happened (reserves j key) → i = j
  submitted : ∀ key, c.Happened (submits key ·) → (c.state.store.admissions.get key).isSome
  submittedOnce : ∀ key, c.AtMostOnce (submits key)
  admission : ∀ key a, c.state.store.admissions.get key = some a →
    a.admissionKey = key ∧ 1 ≤ key.2 ∧ (a.state = .blocked → ¬c.Happened (submits key ·)) ∧
    (a.state = .bound → (c.state.store.runs.get key).isSome)
  run : ∀ key run, c.state.store.runs.get key = some run → run.binding.admissionKey = key ∧
    (c.state.store.admissions.get key).isSome ∧ (terminal run.state → c.Happened (returns run))

def discipline (o : Options) : Rules (agent o) where
  inv := Orderly o
  mayAct i cmd c := cmd.Wellformed ∧ Guard i cmd c
  mayCall := CallGuard

theorem boot_orderly (o : Options) (now : Time) (policy : Policy) :
    Orderly o ⟨State.boot now policy,[]⟩ := by
  constructor <;> simp [State.boot,State.authority,Core.Happened,Core.Followed,Core.AtMostOnce,
    Authority.empty_valid]

end Neurobro.Agent
