import Neurobro.Agent.Refinement

/-! The working part of the store: effects, tokens, admissions and runs. For each of
these collections, what a command can do to a row that is already there. -/
namespace Neurobro.Agent

open Coop

structure Work where
  effects : Table EffectId Effect
  contexts : Table Token ContextRecord
  admissions : Table AdmissionKey Admission
  runs : Table AdmissionKey RunSnapshot

def State.work (s : State) : Work := ⟨s.store.effects,s.store.contexts,s.store.admissions,s.store.runs⟩

namespace State

variable {o : Options} {s s' : State} {T : TaskId}

/-- What revocation does to one record. -/
def revokedRow (s : State) (T : TaskId) (e : Effect) : Effect :=
  if e.taskId = T ∧ e.state = .prepared then s.cancelledEffect e else e

@[simp] theorem journalChildStop_work (T : TaskId) (reason : String) (revision : Nat) :
    (s.journalChildStop o T reason revision).work = s.work := by
  unfold journalChildStop
  split <;> rfl

theorem cancelTask_work (h : s.cancelTask o T = .ok ((),s')) :
    s'.work = { s.work with effects := s.store.effects.mapRows (s.revokedRow T) } := by
  obtain ⟨intent,_,h⟩ := bind_ok h
  obtain ⟨grant,_,h⟩ := bind_ok h
  cases h
  rw [journalChildStop_work]
  rfl

theorem holdTask_work {reason : String} {resume : Bool} (h : s.holdTask o T reason resume = .ok ((),s')) :
    s'.work = s.work ∨ s'.work = { s.work with effects := s.store.effects.mapRows (s.revokedRow T) } := by
  obtain ⟨intent,_,h⟩ := bind_ok h
  split at h
  · cases h
    exact .inl rfl
  · obtain ⟨grant,_,h⟩ := bind_ok h
    cases h
    rw [journalChildStop_work]
    exact .inr rfl

theorem linkFollowUp_work (h : s.linkFollowUp T observation = .ok s') : s'.work = s.work:= by
  unfold linkFollowUp at h
  split at h
  · cases h; rfl
  · split at h
    · contradiction
    · cases h; rfl

@[simp] theorem noteChange_work (request : CorrectionRequest) : (s.noteChange request).work = s.work := by
  unfold noteChange
  split <;> rfl

@[simp] theorem retireGrant_work (grant : Grant) : (s.retireGrant T grant).work =
    { s.work with effects := s.store.effects.mapRows (s.revokedRow T) } := rfl

theorem renewOrigin_work {request : CorrectionRequest} (h : s.renewOrigin o request = .ok s') :
    s'.work = s.work := by
  rcases renewOrigin_ok h with ⟨rfl,_⟩ | ⟨_,_,_,_,_,rfl⟩ <;> rfl

@[simp] theorem grantBaseline_work (intent : TaskIntent) (grant : Grant) :
    (s.grantBaseline o intent grant).2.work = s.work := by
  unfold grantBaseline
  split <;> rfl

@[simp] theorem correctedGrant_work (request : CorrectionRequest) (actual next : TaskIntent)
    (retired : Grant) : (s.correctedGrant o request actual next retired).2.work = s.work := by
  unfold correctedGrant
  split
  · exact grantBaseline_work (s := (s.makeGrant o next).2) actual retired
  · rfl

@[simp] theorem installCorrection_work (request : CorrectionRequest) (actual next : TaskIntent)
    (granted : Grant) : (s.installCorrection o request actual next granted).work = s.work := by
  unfold installCorrection journalChildStop
  split <;> rfl

theorem correctTask_work {request : CorrectionRequest} {corrected : Corrected}
    (h : s.correctTask o request = .ok (corrected,s')) :
    s'.work = s.work ∨
      ∃ clock, s'.work = { s.work with effects := s.store.effects.mapRows (revokedRow clock request.taskId) } := by
  obtain ⟨actual,_,h⟩ := bind_ok h
  obtain ⟨linked,link,h⟩ := bind_ok h
  have same := linkFollowUp_work link
  split at h
  · cases h
    exact .inl same
  · obtain ⟨grant,_,h⟩ := bind_ok h
    obtain ⟨renewed,renew,h⟩ := bind_ok h
    cases h
    have noted : (linked.noteChange request).work = s.work := by simp [same]
    have effects : (linked.noteChange request).store.effects = s.store.effects :=
      congrArg Work.effects noted
    refine .inr ⟨linked.noteChange request,?_⟩
    rw [installCorrection_work,correctedGrant_work,renewOrigin_work renew,retireGrant_work,noted,effects]

theorem resumeTask_work (h : s.resumeTask o T = .ok ((),s')) : s'.work = s.work := by
  obtain ⟨intent,_,h⟩ := bind_ok h
  obtain ⟨⟨granted,made⟩,resumed,h⟩ := bind_ok h
  cases h
  have same : made.work = s.work := by
    unfold resumedGrant at resumed
    split at resumed
    · obtain ⟨prior,_,inherited⟩ := map_ok resumed
      cases inherited
      exact grantBaseline_work intent prior
    · cases resumed; rfl
  exact same

theorem createTask_work (obs : Observation) (command : String) (route : Route) :
    (s.createTask o obs command route).2.work = s.work := by
  unfold createTask
  split
  · rfl
  · unfold openOrigin
    simp only
    split <;> rfl

theorem openControl_work (id : TaskId) (source : MessageRef) (target : Option TaskId) :
    (s.openControl o id source target).2.work = s.work := by
  unfold openControl
  split <;> rfl

@[simp] theorem captureOwnReceipt_work (effect : Effect) : (s.captureOwnReceipt o effect).work = s.work := by
  unfold captureOwnReceipt
  split
  · split
    · rfl
    · simp only
      split <;> rfl
  · rfl

end State

/-- All that commands do to the working part. -/
inductive Work.Step (o : Options) (s : State) : Cmd → Work → Prop where
  | keep (cmd : Cmd) : Step o s cmd s.work
  | revoke (cmd : Cmd) (clock : State) (T : TaskId) :
      Step o s cmd { s.work with effects := s.store.effects.mapRows (clock.revokedRow T) }
  | cancel {id : EffectId} {e : Effect} (found : s.store.effects.get id = some e)
      (prepared : e.state = .prepared) :
      Step o s (.cancelPrepared id) { s.work with effects := s.store.effects.put id (s.cancelledEffect e) }
  | claim {token : Token} {context : ToolContext} {request : EffectRequest} {id : EffectId}
      {payloadHash : String} {e : Effect} (new : s.store.effects.get id = none) :
      Step o s (.claim token context request id payloadHash)
        { s.work with effects := s.store.effects.put id e }
  | settle {effect e : Effect} {result : EffectResult}
      (unverified : ∀ existing, s.store.effects.get effect.id = some existing → existing.state ≠ .verified) :
      Step o s (.settle effect result) { s.work with effects := s.store.effects.put effect.id e }
  | interrupt (stored : Effect) :
      Step o s (.interrupt stored)
        { s.work with effects := s.store.effects.put stored.id (s.interruptedEffect stored) }
  | issue {context : ToolContext} {record : ContextRecord} (issued : record.context = context) :
      Step o s (.issue context) { s.work with contexts := s.store.contexts.put s.fresh record }
  | bind {token : Token} {binding : RunBinding} {record : ContextRecord}
      (found : s.store.contexts.get token = some record) :
      Step o s (.bindToken token binding)
        { s.work with contexts := s.store.contexts.put token (State.boundRecord record binding.runId) }
  | revokeToken {token : Token} {record : ContextRecord} (found : s.store.contexts.get token = some record) :
      Step o s (.revokeToken token)
        { s.work with contexts := s.store.contexts.put token { record with revokedAt := some s.now } }
  | reserve {admission : Admission} (new : s.store.admissions.get admission.admissionKey = none) :
      Step o s (.reserve admission)
        { s.work with admissions := s.store.admissions.put admission.admissionKey admission }
  | putAdmission (admission : Admission) :
      Step o s (.putAdmission admission)
        { s.work with admissions := s.store.admissions.put admission.admissionKey admission }
  | lose {key : AdmissionKey} {admission lost : Admission} (found : s.store.admissions.get key = some admission)
      (reserved : admission.state = .reserved) (state : lost.state = .unknown)
      (named : lost.admissionKey = admission.admissionKey) :
      Step o s (.loseReservation key) { s.work with admissions := s.store.admissions.put key lost }
  | putRun (key : AdmissionKey) (snapshot : RunSnapshot) :
      Step o s (.putRun key snapshot) { s.work with runs := s.store.runs.put key snapshot }

section commands

variable {o : Options} {s : State}

theorem transact_work {α : Type} {r : Except Err (α × State)}
    (h : ∀ a s', r = .ok (a,s') → Work.Step o s cmd s'.work) : Work.Step o s cmd (transact s r).2.work := by
  rcases transact_cases s r with ⟨a,s',same,done⟩ | ⟨e,failed⟩
  · rw [done]
    exact h a s' same
  · rw [failed]
    exact .keep cmd

theorem exec_work (o : Options) (s : State) (cmd : Cmd) : Work.Step o s cmd (exec o cmd s).2.work := by
  cases cmd with
  | issue context =>
    refine transact_work fun token s' h => ?_
    obtain ⟨_,_,rfl⟩ := State.issue_ok h
    exact .issue rfl
  | bindToken token binding =>
    refine transact_work fun _ s' h => ?_
    obtain ⟨record,found,rfl⟩ := State.bindToken_ok h
    exact .bind found
  | revokeToken token =>
    show Work.Step o s _ (s.revokeToken token).work
    unfold State.revokeToken
    split
    · exact .keep _
    · rename_i record found
      split
      · exact .keep _
      · exact .revokeToken found
  | claim token context request id payloadHash =>
    refine transact_work fun _ s' h => ?_
    obtain ⟨_,new,_,rfl⟩ := State.claim_ok h
    exact .claim new
  | settle effect result =>
    refine transact_work fun _ s' h => ?_
    obtain ⟨_,_,_,rfl⟩ | ⟨unverified,_,rfl⟩ := State.settle_ok h
    · exact .keep _
    · exact .settle unverified
  | interrupt stored => exact .interrupt stored
  | captureReceipt effect =>
    show Work.Step o s _ (s.captureOwnReceipt o effect).work
    rw [State.captureOwnReceipt_work]
    exact .keep _
  | cancelPrepared id =>
    show Work.Step o s _ (s.cancelPrepared id).work
    unfold State.cancelPrepared
    split
    · exact .keep _
    · rename_i e found
      split
      · rename_i prepared
        exact .cancel found prepared
      · exact .keep _
  | baseline intent grant =>
    show Work.Step o s _ (s.grantBaseline o intent grant).2.work
    rw [State.grantBaseline_work]
    exact .keep _
  | refreshGrant intent grant baseline prepared =>
    refine transact_work fun _ s' h => ?_
    obtain ⟨_,_,_,_,rfl | ⟨_,rfl,_⟩⟩ := State.refreshGrant_ok h <;> exact .keep _
  | narrowGrant T peerId =>
    refine transact_work fun _ s' h => ?_
    obtain ⟨_,_,_,rfl⟩ := State.narrowGrant_ok h
    exact .keep _
  | cancelTask T =>
    refine transact_work fun _ s' h => ?_
    rw [State.cancelTask_work h]
    exact .revoke _ s T
  | holdTask T reason resume =>
    refine transact_work fun _ s' h => ?_
    rcases State.holdTask_work h with same | revoked
    · rw [same]
      exact .keep _
    · rw [revoked]
      exact .revoke _ s T
  | correctTask request =>
    refine transact_work fun _ s' h => ?_
    rcases State.correctTask_work h with same | ⟨clock,revoked⟩
    · rw [same]
      exact .keep _
    · rw [revoked]
      exact .revoke _ clock request.taskId
  | resumeTask T =>
    refine transact_work fun _ s' h => ?_
    rw [State.resumeTask_work h]
    exact .keep _
  | createTask obs command route =>
    show Work.Step o s _ (s.createTask o obs command route).2.work
    rw [State.createTask_work]
    exact .keep _
  | openControl id source target =>
    show Work.Step o s _ (s.openControl o id source target).2.work
    rw [State.openControl_work]
    exact .keep _
  | reserve admission =>
    show Work.Step o s _ (s.reserve admission).2.work
    unfold State.reserve
    split
    · exact .keep _
    · rename_i new
      exact .reserve new
  | putAdmission admission => exact .putAdmission admission
  | loseReservation key =>
    show Work.Step o s _ (s.loseReservation key).work
    unfold State.loseReservation
    split
    · exact .keep _
    · rename_i admission found
      split
      · rename_i reserved
        exact .lose found reserved rfl rfl
      · exact .keep _
  | putRun key snapshot => exact .putRun key snapshot
  | receive key obs =>
    show Work.Step o s _ (s.receive key obs).work
    unfold State.receive
    split <;> exact .keep _
  | _ => exact .keep _

/-! ## Rows that are already there -/

def Cmd.interrupts (id : EffectId) : Cmd → Prop
  | .interrupt stored => stored.id = id
  | _ => False

/-- An effect's record stays, and only an interruption rewrites a verified one. -/
theorem exec_effect {cmd : Cmd} {id : EffectId} {e : Effect} (found : s.store.effects.get id = some e) :
    ∃ e', (exec o cmd s).2.store.effects.get id = some e' ∧
      (e.state = .verified → ¬cmd.interrupts id → e' = e) := by
  have step := exec_work o s cmd
  generalize work : (exec o cmd s).2.work = after at step
  rw [show (exec o cmd s).2.store.effects = after.effects from congrArg Work.effects work]
  have put : ∀ {k : EffectId} {x : Effect}, (id = k → e.state = .verified → ¬cmd.interrupts id → False) →
      ∃ e', (s.store.effects.put k x).get id = some e' ∧
        (e.state = .verified → ¬cmd.interrupts id → e' = e) := by
    intro k x apart
    rw [Table.get_put]
    split
    · rename_i same
      exact ⟨x,rfl,fun verified quiet => (apart same verified quiet).elim⟩
    · exact ⟨e,found,fun _ _ => rfl⟩
  cases step with
  | revoke _ clock T =>
    refine ⟨clock.revokedRow T e,?_,fun verified _ => ?_⟩
    · show (s.store.effects.mapRows (clock.revokedRow T)).get id = _
      rw [Table.get_mapRows,found]
      rfl
    · simp [State.revokedRow,verified]
  | cancel stored prepared =>
    refine put fun same verified _ => ?_
    cases Option.some.inj (found.symm.trans (same ▸ stored))
    simp [verified] at prepared
  | claim new => exact put fun same _ _ => by simp [same,new] at found
  | settle unverified => exact put fun same verified _ => unverified e (same ▸ found) verified
  | interrupt stored => exact put fun same _ quiet => quiet same.symm
  | _ => exact ⟨e,found,fun _ _ => rfl⟩

/-- A token keeps its context, the run it is bound to apart. -/
structure ToolContext.Same (a b : ToolContext) : Prop where
  taskId : a.taskId = b.taskId
  intentRevision : a.intentRevision = b.intentRevision
  grantId : a.grantId = b.grantId
  grantRevision : a.grantRevision = b.grantRevision

theorem exec_context {token : Token} {record : ContextRecord}
    (found : s.store.contexts.get token = some record) (old : token < s.fresh) :
    ∃ record', (exec o cmd s).2.store.contexts.get token = some record' ∧
      record'.context.Same record.context := by
  have step := exec_work o s cmd
  generalize work : (exec o cmd s).2.work = after at step
  rw [show (exec o cmd s).2.store.contexts = after.contexts from congrArg Work.contexts work]
  have put : ∀ {k : Token} {x : ContextRecord}, (token = k → x.context.Same record.context) →
      ∃ record', (s.store.contexts.put k x).get token = some record' ∧
        record'.context.Same record.context := by
    intro k x same
    rw [Table.get_put]
    split
    · rename_i at'
      exact ⟨x,rfl,same at'⟩
    · exact ⟨record,found,rfl,rfl,rfl,rfl⟩
  cases step with
  | issue => exact put fun same => absurd old (same ▸ Nat.lt_irrefl _)
  | bind stored =>
    refine put fun same => ?_
    cases Option.some.inj (found.symm.trans (same ▸ stored))
    exact ⟨rfl,rfl,rfl,rfl⟩
  | revokeToken stored =>
    refine put fun same => ?_
    cases Option.some.inj (found.symm.trans (same ▸ stored))
    exact ⟨rfl,rfl,rfl,rfl⟩
  | _ => exact ⟨record,found,rfl,rfl,rfl,rfl⟩

theorem exec_admissions (o : Options) (s : State) (cmd : Cmd) :
    (exec o cmd s).2.store.admissions = s.store.admissions ∨
    (∃ a, cmd = .reserve a ∧ s.store.admissions.get a.admissionKey = none ∧
      (exec o cmd s).2.store.admissions = s.store.admissions.put a.admissionKey a) ∨
    (∃ a, cmd = .putAdmission a ∧
      (exec o cmd s).2.store.admissions = s.store.admissions.put a.admissionKey a) ∨
    ∃ key a lost, cmd = .loseReservation key ∧ s.store.admissions.get key = some a ∧ a.state = .reserved ∧
      lost.state = .unknown ∧ lost.admissionKey = a.admissionKey ∧
      (exec o cmd s).2.store.admissions = s.store.admissions.put key lost := by
  have step := exec_work o s cmd
  generalize work : (exec o cmd s).2.work = after at step
  rw [show (exec o cmd s).2.store.admissions = after.admissions from congrArg Work.admissions work]
  cases step with
  | reserve new => exact .inr (.inl ⟨_,rfl,new,rfl⟩)
  | putAdmission a => exact .inr (.inr (.inl ⟨a,rfl,rfl⟩))
  | lose found reserved unknown named =>
    exact .inr (.inr (.inr ⟨_,_,_,rfl,found,reserved,unknown,named,rfl⟩))
  | _ => exact .inl rfl

theorem exec_runs (o : Options) (s : State) (cmd : Cmd) :
    (exec o cmd s).2.store.runs = s.store.runs ∨
    ∃ key snapshot, cmd = .putRun key snapshot ∧
      (exec o cmd s).2.store.runs = s.store.runs.put key snapshot := by
  have step := exec_work o s cmd
  generalize work : (exec o cmd s).2.work = after at step
  rw [show (exec o cmd s).2.store.runs = after.runs from congrArg Work.runs work]
  cases step with
  | putRun key snapshot => exact .inr ⟨key,snapshot,rfl,rfl⟩
  | _ => exact .inl rfl

end commands

end Neurobro.Agent
