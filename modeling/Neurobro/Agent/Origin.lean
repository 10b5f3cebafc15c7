import Neurobro.Agent.Refinement

/-! Where messages belong: the sources of tasks, the agent's own outputs, the owner's
speech under review and the deadlines of public replies. What a command can do to
each of them. -/
namespace Neurobro.Agent

open Coop

structure Origin where
  sources : Table String TaskId
  outputs : Table String OwnOutput
  reviews : Table TaskId OriginReview
  deadlines : Table TaskId OriginDeadline

def State.origin (s : State) : Origin :=
  ⟨s.store.sources,s.store.ownOutputs,s.store.originReview,s.store.originDeadlines⟩

/-- A correction by the owner that sets a public route. -/
def CorrectionRequest.reopens (o : Options) (request : CorrectionRequest) : Prop :=
  request.contextRefresh = false ∧
    ∃ route, request.route = some route ∧ route.peerId ≠ o.privateRoute.peerId

namespace State

variable {o : Options} {s s' : State} {T : TaskId}

@[simp] theorem journalChildStop_origin (T : TaskId) (reason : String) (revision : Nat) :
    (s.journalChildStop o T reason revision).origin = s.origin := by
  unfold journalChildStop
  split <;> rfl

theorem cancelTask_origin (h : s.cancelTask o T = .ok ((),s')) : s'.origin = s.origin := by
  obtain ⟨intent,_,h⟩ := bind_ok h
  obtain ⟨grant,_,h⟩ := bind_ok h
  cases h
  rw [journalChildStop_origin]
  rfl

theorem holdTask_origin {reason : String} {resume : Bool} (h : s.holdTask o T reason resume = .ok ((),s')) :
    s'.origin = s.origin := by
  obtain ⟨intent,_,h⟩ := bind_ok h
  split at h
  · cases h; rfl
  · obtain ⟨grant,_,h⟩ := bind_ok h
    cases h
    rw [journalChildStop_origin]
    rfl

@[simp] theorem noteChange_origin (request : CorrectionRequest) : (s.noteChange request).origin = s.origin := by
  unfold noteChange
  split <;> rfl

@[simp] theorem grantBaseline_origin (intent : TaskIntent) (grant : Grant) :
    (s.grantBaseline o intent grant).2.origin = s.origin := by
  unfold grantBaseline
  split <;> rfl

@[simp] theorem correctedGrant_origin (request : CorrectionRequest) (actual next : TaskIntent)
    (retired : Grant) : (s.correctedGrant o request actual next retired).2.origin = s.origin := by
  unfold correctedGrant
  split
  · exact grantBaseline_origin (s := (s.makeGrant o next).2) actual retired
  · rfl

@[simp] theorem installCorrection_origin (request : CorrectionRequest) (actual next : TaskIntent)
    (granted : Grant) : (s.installCorrection o request actual next granted).origin = s.origin := by
  unfold installCorrection journalChildStop
  split <;> rfl

/-- A follow-up becomes a source of its task. -/
theorem linkFollowUp_origin (h : s.linkFollowUp T observation = .ok s') :
    s'.origin = s.origin ∨ ∃ key, s'.origin = { s.origin with sources := s.store.sources.put key T } := by
  unfold linkFollowUp at h
  split at h
  · cases h; exact .inl rfl
  · split at h
    · contradiction
    · cases h; exact .inr ⟨_,rfl⟩

/-- What a correction does to the sources, the reviews and the deadlines. -/
structure Corrects (o : Options) (s : State) (request : CorrectionRequest) (after : Origin) : Prop where
  task : (s.store.tasks.get request.taskId).isSome
  sources : after.sources = s.store.sources ∨
    ∃ key, after.sources = s.store.sources.put key request.taskId
  outputs : after.outputs = s.store.ownOutputs
  renewed : (after.reviews = s.store.originReview ∧ after.deadlines = s.store.originDeadlines) ∨
    (request.reopens o ∧ after.reviews = s.store.originReview.delete request.taskId ∧
      ∃ deadline, after.deadlines = s.store.originDeadlines.put request.taskId deadline)

/-- A correction links its follow-up, and renews the origin when it reopens it. -/
theorem correctTask_origin {request : CorrectionRequest} {corrected : Corrected}
    (h : s.correctTask o request = .ok (corrected,s')) : Corrects o s request s'.origin := by
  obtain ⟨actual,task,h⟩ := bind_ok h
  obtain ⟨linked,link,h⟩ := bind_ok h
  have known := Option.isSome_of_eq_some (requireTask_ok task)
  have sources : linked.store.sources = s.store.sources ∨
      ∃ key, linked.store.sources = s.store.sources.put key request.taskId := by
    rcases linkFollowUp_origin link with same | ⟨key,put⟩
    · exact .inl (congrArg Origin.sources same)
    · exact .inr ⟨key,congrArg Origin.sources put⟩
  have rest : linked.store.ownOutputs = s.store.ownOutputs ∧ linked.store.originReview = s.store.originReview ∧
      linked.store.originDeadlines = s.store.originDeadlines := by
    rcases linkFollowUp_origin link with same | ⟨key,same⟩ <;>
      exact ⟨congrArg Origin.outputs same,congrArg Origin.reviews same,congrArg Origin.deadlines same⟩
  split at h
  · cases h
    exact ⟨known,sources,rest.1,.inl rest.2⟩
  · obtain ⟨grant,_,h⟩ := bind_ok h
    obtain ⟨renewed,renew,h⟩ := bind_ok h
    cases h
    rw [installCorrection_origin,correctedGrant_origin]
    have noted : (linked.noteChange request).origin = linked.origin := noteChange_origin request
    rcases renewOrigin_ok renew with ⟨rfl,_⟩ | ⟨route,deadline,given,_,open',rfl⟩
    · have same : ((linked.noteChange request).retireGrant request.taskId grant).origin = linked.origin := noted
      rw [same]
      exact ⟨known,sources,rest.1,.inl rest.2⟩
    · simp only [not_or,Bool.not_eq_true] at open'
      refine ⟨known,?_,?_,.inr ⟨⟨open'.1,route,given,open'.2⟩,?_,deadline,?_⟩⟩
      · exact (congrArg Origin.sources noted) ▸ sources
      · exact (congrArg Origin.outputs noted).trans rest.1
      · exact congrArg (·.delete request.taskId) ((congrArg Origin.reviews noted).trans rest.2.1)
      · exact congrArg (·.put request.taskId deadline) ((congrArg Origin.deadlines noted).trans rest.2.2)

theorem resumeTask_origin (h : s.resumeTask o T = .ok ((),s')) : s'.origin = s.origin := by
  obtain ⟨intent,_,h⟩ := bind_ok h
  obtain ⟨⟨granted,made⟩,resumed,h⟩ := bind_ok h
  cases h
  have same : made.origin = s.origin := by
    unfold resumedGrant at resumed
    split at resumed
    · obtain ⟨prior,_,inherited⟩ := map_ok resumed
      cases inherited
      exact grantBaseline_origin intent prior
    · cases resumed; rfl
  exact same

theorem createTask_origin (obs : Observation) (command : String) (route : Route) :
    (s.createTask o obs command route).2.origin = s.origin ∨
      ((s.createTask o obs command route).1.2 = true ∧ ∃ deadlines,
        (deadlines = s.store.originDeadlines ∨
          ∃ deadline, deadlines = s.store.originDeadlines.put (.uuid s.fresh) deadline) ∧
        (s.createTask o obs command route).2.origin =
          { s.origin with
            sources := s.store.sources.put (refKey obs.ref) (.uuid s.fresh)
            deadlines }) := by
  unfold createTask
  split
  · exact .inl rfl
  · refine .inr ⟨rfl,?_⟩
    unfold openOrigin
    simp only
    split
    · exact ⟨_,.inl rfl,rfl⟩
    · exact ⟨_,.inr ⟨_,rfl⟩,rfl⟩

theorem openControl_origin (id : TaskId) (source : MessageRef) (target : Option TaskId) :
    (s.openControl o id source target).2.origin = s.origin := by
  unfold openControl
  split <;> rfl

theorem captureOwnReceipt_origin (effect : Effect) : (s.captureOwnReceipt o effect).origin = s.origin ∨
    ∃ key output, (s.captureOwnReceipt o effect).origin =
      { s.origin with outputs := s.store.ownOutputs.put key output } := by
  unfold captureOwnReceipt
  split
  · split
    · exact .inl rfl
    · simp only
      split
      · exact .inl rfl
      · exact .inr ⟨_,_,rfl⟩
  · exact .inl rfl

end State

/-- All that commands do to the origin part. -/
inductive Origin.Step (o : Options) (s : State) : Cmd → Origin → Prop where
  | keep (cmd : Cmd) : Step o s cmd s.origin
  | output (cmd : Cmd) (key : String) (output : OwnOutput) :
      Step o s cmd { s.origin with outputs := s.store.ownOutputs.put key output }
  | review (review : OriginReview) :
      Step o s (.reviewOrigin review)
        { s.origin with reviews := s.store.originReview.put review.taskId review }
  | correct {request : CorrectionRequest} {after : Origin}
      (committed : ∃ corrected, (exec o (.correctTask request) s).1 = .ok corrected)
      (corrects : s.Corrects o request after) : Step o s (.correctTask request) after
  | create {obs : Observation} {command : String} {route : Route} {deadlines : Table TaskId OriginDeadline}
      (created : (s.createTask o obs command route).1.2 = true)
      (dated : deadlines = s.store.originDeadlines ∨
        ∃ deadline, deadlines = s.store.originDeadlines.put (.uuid s.fresh) deadline) :
      Step o s (.createTask obs command route)
        { s.origin with
          sources := s.store.sources.put (refKey obs.ref) (.uuid s.fresh)
          deadlines }

section commands

variable {o : Options} {s : State} {cmd : Cmd}

theorem transact_origin {α : Type} {r : Except Err (α × State)}
    (h : ∀ a s', r = .ok (a,s') → Origin.Step o s cmd s'.origin) :
    Origin.Step o s cmd (transact s r).2.origin := by
  rcases transact_cases s r with ⟨a,s',same,done⟩ | ⟨e,failed⟩
  · rw [done]
    exact h a s' same
  · rw [failed]
    exact .keep cmd

/-- A transaction that leaves the origin part alone. -/
theorem transact_same {α : Type} {r : Except Err (α × State)}
    (h : ∀ a s', r = .ok (a,s') → s'.origin = s.origin) : Origin.Step o s cmd (transact s r).2.origin :=
  transact_origin fun a s' same => h a s' same ▸ .keep cmd

theorem exec_origin (o : Options) (s : State) (cmd : Cmd) : Origin.Step o s cmd (exec o cmd s).2.origin := by
  cases cmd with
  | issue context =>
    refine transact_same fun token s' h => ?_
    obtain ⟨_,_,rfl⟩ := State.issue_ok h
    rfl
  | bindToken token binding =>
    refine transact_same fun _ s' h => ?_
    obtain ⟨_,_,rfl⟩ := State.bindToken_ok h
    rfl
  | revokeToken token =>
    show Origin.Step o s _ (s.revokeToken token).origin
    unfold State.revokeToken
    split
    · exact .keep _
    · split <;> exact .keep _
  | claim token context request id payloadHash =>
    refine transact_same fun _ s' h => ?_
    obtain ⟨_,_,_,rfl⟩ := State.claim_ok h
    rfl
  | settle effect result =>
    refine transact_same fun _ s' h => ?_
    obtain ⟨_,_,_,rfl⟩ | ⟨_,_,rfl⟩ := State.settle_ok h <;> rfl
  | captureReceipt effect =>
    show Origin.Step o s _ (s.captureOwnReceipt o effect).origin
    rcases State.captureOwnReceipt_origin (o := o) (s := s) effect with same | ⟨key,output,put⟩
    · rw [same]; exact .keep _
    · rw [put]; exact .output _ key output
  | cancelPrepared id =>
    show Origin.Step o s _ (s.cancelPrepared id).origin
    unfold State.cancelPrepared
    split
    · exact .keep _
    · split <;> exact .keep _
  | baseline intent grant =>
    show Origin.Step o s _ (s.grantBaseline o intent grant).2.origin
    rw [State.grantBaseline_origin]
    exact .keep _
  | refreshGrant intent grant baseline prepared =>
    refine transact_same fun _ s' h => ?_
    obtain ⟨_,_,_,_,rfl | ⟨_,rfl,_⟩⟩ := State.refreshGrant_ok h <;> rfl
  | narrowGrant T peerId =>
    refine transact_same fun _ s' h => ?_
    obtain ⟨_,_,_,rfl⟩ := State.narrowGrant_ok h
    rfl
  | cancelTask T => exact transact_same fun _ _ h => State.cancelTask_origin h
  | holdTask T reason resume => exact transact_same fun _ _ h => State.holdTask_origin h
  | correctTask request =>
    refine transact_origin fun corrected s' h => ?_
    exact .correct ⟨corrected,by simp [exec,transact,h]⟩ (State.correctTask_origin h)
  | resumeTask T => exact transact_same fun _ _ h => State.resumeTask_origin h
  | createTask obs command route =>
    show Origin.Step o s _ (s.createTask o obs command route).2.origin
    rcases State.createTask_origin (o := o) (s := s) obs command route with same | ⟨created,_,dated,put⟩
    · rw [same]; exact .keep _
    · rw [put]; exact .create created dated
  | openControl id source target =>
    show Origin.Step o s _ (s.openControl o id source target).2.origin
    rw [State.openControl_origin]
    exact .keep _
  | reserve admission =>
    show Origin.Step o s _ (s.reserve admission).2.origin
    unfold State.reserve
    split <;> exact .keep _
  | loseReservation key =>
    show Origin.Step o s _ (s.loseReservation key).origin
    unfold State.loseReservation
    split
    · exact .keep _
    · split <;> exact .keep _
  | receive key obs =>
    show Origin.Step o s _ (s.receive key obs).origin
    unfold State.receive
    split <;> exact .keep _
  | reviewOrigin review => exact .review review
  | putOwnOutput output => exact .output _ _ output
  | _ => exact .keep _

/-! ## What stays -/

theorem exec_output {key : String} (found : (s.store.ownOutputs.get key).isSome) :
    ((exec o cmd s).2.store.ownOutputs.get key).isSome := by
  have step := exec_origin o s cmd
  generalize origin : (exec o cmd s).2.origin = after at step
  rw [show (exec o cmd s).2.store.ownOutputs = after.outputs from congrArg Origin.outputs origin]
  cases step with
  | keep | review | create => exact found
  | output _ key' output =>
    show ((s.store.ownOutputs.put key' output).get key).isSome
    rw [Table.get_put]
    split
    · rfl
    · exact found
  | correct _ corrects => rw [corrects.outputs]; exact found

theorem exec_task (valid : s.authority.Valid o) (formed : cmd.Wellformed)
    (found : (s.store.tasks.get T).isSome) : ((exec o cmd s).2.store.tasks.get T).isSome := by
  obtain ⟨intent,task⟩ := Option.isSome_iff_exists.mp found
  obtain ⟨_,task',_⟩ := (exec_step valid formed).task task
  exact Option.isSome_of_eq_some task'

theorem taskForSource_isSome : (s.taskForSource ref).isSome ↔
    ∃ T, s.store.sources.get (refKey ref) = some T ∧ (s.store.tasks.get T).isSome := by
  unfold State.taskForSource
  cases s.store.sources.get (refKey ref) <;> simp

/-- A message that belongs to a task goes on belonging to one. -/
theorem exec_source (valid : s.authority.Valid o) (formed : cmd.Wellformed)
    (found : (s.taskForSource ref).isSome) : ((exec o cmd s).2.taskForSource ref).isSome := by
  obtain ⟨T,source,task⟩ := taskForSource_isSome.mp found
  have kept : (exec o cmd s).2.store.sources.get (refKey ref) = some T →
      ((exec o cmd s).2.taskForSource ref).isSome := fun same =>
    taskForSource_isSome.mpr ⟨T,same,exec_task valid formed task⟩
  have put : ∀ {key : String} {T' : TaskId},
      (exec o cmd s).2.store.sources = s.store.sources.put key T' →
      ((exec o cmd s).2.store.tasks.get T').isSome → ((exec o cmd s).2.taskForSource ref).isSome := by
    intro key T' sources exists'
    by_cases same : refKey ref = key
    · exact taskForSource_isSome.mpr ⟨T',by rw [sources,same]; exact Table.get_put_same _ _ _,exists'⟩
    · exact kept (by rw [sources,Table.get_put_other _ _ same]; exact source)
  have step := exec_origin o s cmd
  generalize origin : (exec o cmd s).2.origin = after at step
  have sources : (exec o cmd s).2.store.sources = after.sources := congrArg Origin.sources origin
  cases step with
  | keep | output | review => exact kept (by rw [sources]; exact source)
  | correct _ corrects =>
    rcases corrects.sources with same | ⟨key,same⟩
    · exact kept (by rw [sources,same]; exact source)
    · exact put (sources.trans same) (exec_task valid formed corrects.task)
  | @create obs command route _ created =>
    refine put sources ?_
    rcases State.createTask_authority (o := o) (s := s) obs command route with
      ⟨no,_⟩ | ⟨granted,_,_,_,_,same⟩
    · simp [no] at created
    · have tasks : (exec o (.createTask obs command route) s).2.store.tasks = _ := congrArg Authority.tasks same
      rw [tasks]
      simp

/-- The owner has spoken in the chat this task would answer in. -/
structure Shut (T : TaskId) (P : PeerId) (s : State) : Prop where
  task : (s.store.tasks.get T).isSome
  reviewed : (s.store.originReview.get T).isSome
  dated : ∃ deadline, s.store.originDeadlines.get T = some deadline ∧ deadline.peerId = some P

/-- Only an owner correction that sets a public route opens the chat again. -/
theorem exec_shut (valid : s.authority.Valid o) (formed : cmd.Wellformed)
    (shut : Shut T P s) (closed : ∀ request, cmd = .correctTask request → request.taskId = T →
      (∃ corrected, (exec o (.correctTask request) s).1 = .ok corrected) → ¬request.reopens o) :
    Shut T P (exec o cmd s).2 := by
  have step := exec_origin o s cmd
  generalize origin : (exec o cmd s).2.origin = after at step
  have reviews : (exec o cmd s).2.store.originReview = after.reviews := congrArg Origin.reviews origin
  have deadlines : (exec o cmd s).2.store.originDeadlines = after.deadlines := congrArg Origin.deadlines origin
  refine ⟨exec_task valid formed shut.task,?_,?_⟩
  · rw [reviews]
    cases step with
    | keep | output | create => exact shut.reviewed
    | review review =>
      show ((s.store.originReview.put review.taskId review).get T).isSome
      rw [Table.get_put]
      split
      · rfl
      · exact shut.reviewed
    | @correct request _ committed corrects =>
      rcases corrects.renewed with same | ⟨reopens,deleted,_⟩
      · rw [same.1]; exact shut.reviewed
      · have other : T ≠ request.taskId := fun same => closed request rfl same.symm committed reopens
        rw [deleted,Table.get_delete,if_neg other]
        exact shut.reviewed
  · rw [deadlines]
    cases step with
    | keep | output | review => exact shut.dated
    | @correct request _ committed corrects =>
      rcases corrects.renewed with same | ⟨reopens,_,deadline,put⟩
      · rw [same.2]; exact shut.dated
      · have other : T ≠ request.taskId := fun same => closed request rfl same.symm committed reopens
        rw [put,Table.get_put_other _ _ other]
        exact shut.dated
    | create _ dated =>
      rcases dated with same | ⟨deadline,put⟩
      · rw [same]; exact shut.dated
      · have other : T ≠ .uuid s.fresh := by
          rintro rfl
          obtain ⟨intent,task⟩ := Option.isSome_iff_exists.mp shut.task
          exact Nat.lt_irrefl _ (valid.named _ intent task)
        rw [put,Table.get_put_other _ _ other]
        exact shut.dated

end commands

end Neurobro.Agent
