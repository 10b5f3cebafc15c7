import Neurobro.Agent.Authority
import Neurobro.Data.Results

/-! Each command, by what it does to the authority part of the store: the transactions
of the controller refine the authority steps, and every other command leaves that
part alone. -/
namespace Neurobro.Agent

open Coop

theorem transact_cases {α : Type} (s : State) (r : Except Err (α × State)) :
    (∃ a s', r = .ok (a,s') ∧ transact s r = (.ok a,s')) ∨ ∃ e, transact s r = (.error e,s) := by
  cases r with
  | ok p => exact .inl ⟨p.1,p.2,rfl,rfl⟩
  | error e => exact .inr ⟨e,rfl⟩

/-- A transaction that returned a value is one that went through. -/
theorem transact_ok {α : Type} {s : State} {r : Except Err (α × State)} {a : α}
    (h : (transact s r).1 = .ok a) : r = .ok (a,(transact s r).2) := by
  rcases transact_cases s r with ⟨b,s',same,done⟩ | ⟨e,failed⟩
  · rw [done] at h ⊢
    cases h
    exact same
  · rw [failed] at h
    contradiction

theorem transact_error {α : Type} {s : State} {r : Except Err (α × State)} {e : Err}
    (h : (transact s r).1 = .error e) : r = .error e := by
  cases r with
  | ok _ => contradiction
  | error e' => exact congrArg _ (Except.error.inj h)

namespace State

variable {o : Options} {s s' : State} {T : TaskId}

theorem requireTask_ok (h : s.requireTask T = .ok intent) : s.store.tasks.get T = some intent:= by
  unfold requireTask at h
  split at h
  · cases h; assumption
  · contradiction

theorem requireGrant_ok {grant : Grant} (h : s.requireGrant g = .ok grant) : s.store.grants.get g = some grant:= by
  unfold requireGrant at h
  split at h
  · cases h; assumption
  · contradiction

@[simp] theorem authority_journalChildStop (T : TaskId) (reason : String) (revision : Nat) :
    (s.journalChildStop o T reason revision).authority = s.authority := by
  unfold journalChildStop
  split <;> rfl

theorem revokedGrant_amends (grant : Grant) : grant.Amends (s.revokedGrant grant) :=
  ⟨rfl,Nat.le_succ _,fun _ => rfl⟩

theorem cancelTask_ok (h : s.cancelTask o T = .ok ((),s')) :
    ∃ intent grant, s.authority.Current T intent grant ∧
      s'.authority = { s.authority with
        grants := s.store.grants.put grant.id (s.revokedGrant grant)
        controls := s.store.controls.put T (s.cancelControl T) } := by
  obtain ⟨intent,task,h⟩ := bind_ok h
  obtain ⟨grant,held,h⟩ := bind_ok h
  cases h
  exact ⟨intent,grant,⟨requireTask_ok task,requireGrant_ok held⟩,by simp; rfl⟩

theorem cancelledIn_iff : s.cancelledIn T ↔ ∃ k, s.store.controls.get T = some k ∧ k.cancelledAt.isSome := by
  unfold cancelledIn
  cases s.store.controls.get T <;> simp

/-- A hold changes nothing once the task is cancelled. -/
theorem holdTask_ok {reason : String} {resume : Bool} (h : s.holdTask o T reason resume = .ok ((),s')) :
    ∃ intent, s.store.tasks.get T = some intent ∧
      ((s.cancelledIn T ∧ s' = s) ∨ ∃ grant, s.authority.Current T intent grant ∧ ¬s.cancelledIn T ∧
        s'.authority = { s.authority with
          grants := s.store.grants.put grant.id (s.revokedGrant grant)
          controls := s.store.controls.put T (s.holdControl T reason resume) }) := by
  obtain ⟨intent,task,h⟩ := bind_ok h
  refine ⟨intent,requireTask_ok task,?_⟩
  split at h
  · rename_i cancelled
    cases h
    exact .inl ⟨cancelled,rfl⟩
  · rename_i open'
    obtain ⟨grant,held,h⟩ := bind_ok h
    cases h
    exact .inr ⟨grant,⟨requireTask_ok task,requireGrant_ok held⟩,open',by simp; rfl⟩

theorem narrowedGrant_amends (peerId : PeerId) (grant : Grant) : grant.Amends (narrowedGrant peerId grant) :=
  ⟨rfl,Nat.le_succ _,fun revoked => revoked⟩

theorem narrowGrant_ok (h : s.narrowGrant T peerId = .ok ((),s')) :
    ∃ intent grant, s.authority.Current T intent grant ∧
      s' = { s with store.grants := s.store.grants.put grant.id (narrowedGrant peerId grant) } := by
  obtain ⟨intent,task,h⟩ := bind_ok h
  obtain ⟨grant,held,h⟩ := bind_ok h
  cases h
  exact ⟨intent,grant,⟨requireTask_ok task,requireGrant_ok held⟩,rfl⟩

/-- A refreshed grant is the one that was read, not revoked meanwhile. -/
theorem refreshGrant_ok {grant : Grant}
    {prepared : Option PreparedAuthority} (h : s.refreshGrant o intent grant baseline prepared = .ok ((),s')) :
    ∃ actual current, s.authority.Current intent.id actual current ∧ actual.revision = intent.revision ∧
      (s' = s ∨ ∃ next, s' = { s with store.grants := s.store.grants.put current.id next } ∧
        current.Amends next) := by
  obtain ⟨actual,task,h⟩ := bind_ok h
  obtain ⟨current,held,h⟩ := bind_ok h
  split at h
  · contradiction
  · rename_i fits
    obtain ⟨expiresAt,_,h⟩ := bind_ok h
    refine ⟨actual,current,⟨requireTask_ok task,requireGrant_ok held⟩,by simp_all,?_⟩
    split at h
    · cases h
      exact .inr ⟨_,rfl,rfl,Nat.le_succ _,fun revoked => revoked⟩
    · cases h
      exact .inl rfl

/-! ## New grants -/

@[simp] theorem makeGrant_authority (intent : TaskIntent) : (s.makeGrant o intent).2.authority = s.authority := rfl

theorem makeGrant_id (intent : TaskIntent) : (s.makeGrant o intent).1.id = intent.grantId := rfl

theorem makeGrant_revokedAt (intent : TaskIntent) : (s.makeGrant o intent).1.revokedAt = none := rfl

@[simp] theorem grantBaseline_authority (intent : TaskIntent) (grant : Grant) :
    (s.grantBaseline o intent grant).2.authority = s.authority := by
  unfold grantBaseline
  split <;> rfl

theorem grantBaseline_now (intent : TaskIntent) (grant : Grant) :
    (s.grantBaseline o intent grant).2.now = s.now := by
  unfold grantBaseline
  split <;> rfl

@[simp] theorem inheritGrant_authority (intent : TaskIntent) (prior next : Grant) :
    (s.inheritGrant o intent prior next).2.authority = s.authority :=
  grantBaseline_authority (s := s) intent prior

/-! ## Correction -/

/-- Linking a follow-up records its provenance and nothing about authority. -/
theorem linkFollowUp_ok (h : s.linkFollowUp T observation = .ok s') :
    s'.authority = s.authority ∧ s'.now = s.now ∧ s'.fresh = s.fresh ∧
      s'.store.appliedChanges = s.store.appliedChanges := by
  unfold linkFollowUp at h
  split at h
  · cases h; exact ⟨rfl,rfl,rfl,rfl⟩
  · split at h
    · contradiction
    · cases h; exact ⟨rfl,rfl,rfl,rfl⟩

theorem renewOrigin_ok {request : CorrectionRequest} (h : s.renewOrigin o request = .ok s') :
    (s' = s ∧ ∀ route, request.route = some route →
      request.contextRefresh ∨ route.peerId = o.privateRoute.peerId) ∨
    ∃ route deadline, request.route = some route ∧ deadline.peerId = some route.peerId ∧
      ¬(request.contextRefresh ∨ route.peerId = o.privateRoute.peerId) ∧
      s' = { s with
        store.originDeadlines := s.store.originDeadlines.put request.taskId deadline
        store.originReview := s.store.originReview.delete request.taskId } := by
  unfold renewOrigin at h
  split at h
  · rename_i none'
    cases h
    exact .inl ⟨rfl,fun route given => by simp [none'] at given⟩
  · rename_i route given
    split at h
    · rename_i exempt
      cases h
      exact .inl ⟨rfl,fun route' given' => by
        cases Option.some.inj (given.symm.trans given'); exact exempt⟩
    · rename_i open'
      split at h
      · contradiction
      · cases h
        exact .inr ⟨route,_,given,rfl,open',rfl⟩

@[simp] theorem noteChange_authority (request : CorrectionRequest) :
    (s.noteChange request).authority = s.authority := by
  unfold noteChange
  split <;> rfl

@[simp] theorem noteChange_now (request : CorrectionRequest) : (s.noteChange request).now = s.now := by
  unfold noteChange
  split <;> rfl

/-- The next intention depends on the clock and the supply of names alone. -/
theorem nextIntent_congr {request : CorrectionRequest} (now : s'.now = s.now)
    (fresh : s'.fresh = s.fresh) : s'.nextIntent request actual = s.nextIntent request actual := by
  simp only [nextIntent,now,fresh]

theorem correctedGrant_spec (request : CorrectionRequest) (actual next : TaskIntent) (retired : Grant) :
    (s.correctedGrant o request actual next retired).2.authority = s.authority ∧
    (s.correctedGrant o request actual next retired).1.id = next.grantId ∧
    (s.correctedGrant o request actual next retired).1.revokedAt = none := by
  unfold correctedGrant
  split
  · exact ⟨by simp,rfl,rfl⟩
  · exact ⟨rfl,rfl,rfl⟩

@[simp] theorem installCorrection_authority (request : CorrectionRequest) (actual next : TaskIntent)
    (granted : Grant) : (s.installCorrection o request actual next granted).authority =
      { s.authority with
        tasks := s.store.tasks.put request.taskId next
        grants := s.store.grants.put next.grantId granted
        controls := s.store.controls.put request.taskId (s.correctionBarrier request.taskId) } := by
  unfold installCorrection journalChildStop
  split <;> rfl

theorem retiredGrant_amends (grant : Grant) : grant.Amends (s.retiredGrant grant) :=
  ⟨rfl,Nat.le_refl _,fun _ => rfl⟩

@[simp] theorem retireGrant_authority (grant : Grant) : (s.retireGrant T grant).authority =
    { s.authority with
      grants := s.store.grants.put grant.id (s.retiredGrant grant)
      fresh := s.fresh + 1 } := rfl

@[simp] theorem retireGrant_now (grant : Grant) : (s.retireGrant T grant).now = s.now := rfl

theorem renewOrigin_authority {request : CorrectionRequest} (h : s.renewOrigin o request = .ok s') :
    s'.authority = { s.authority with deadlines := s'.store.originDeadlines } ∧ s'.now = s.now := by
  rcases renewOrigin_ok h with ⟨rfl,_⟩ | ⟨_,_,_,_,_,rfl⟩ <;> exact ⟨rfl,rfl⟩

theorem retiredGrant_congr {grant : Grant} (now : s'.now = s.now) :
    s'.retiredGrant grant = s.retiredGrant grant := by simp only [retiredGrant,now]

theorem correctionBarrier_congr (now : s'.now = s.now) :
    s'.correctionBarrier T = s.correctionBarrier T := by simp only [correctionBarrier,now]

@[simp] theorem correctedGrant_now (request : CorrectionRequest) (actual next : TaskIntent)
    (retired : Grant) : (s.correctedGrant o request actual next retired).2.now = s.now := by
  unfold correctedGrant
  split
  · exact grantBaseline_now (s := (s.makeGrant o next).2) actual retired
  · rfl

/-- How the public deadline follows the route of a correction. -/
theorem renewOrigin_reroutes {request : CorrectionRequest} {actual : TaskIntent} {s₁ s₂ : State}
    (h : s₁.renewOrigin o request = .ok s₂) (context : request.contextRefresh → request.route = none) :
    Authority.Reroutes o request.taskId s₁.store.originDeadlines actual.route
      (s.nextIntent request actual).route s₂.store.originDeadlines := by
  rcases renewOrigin_ok h with ⟨rfl,exempt⟩ | ⟨route,deadline,given,peer,_,rfl⟩
  · cases given : request.route with
    | none =>
      have kept : (s.nextIntent request actual).route = actual.route := by simp [nextIntent,given]
      rw [kept]
      exact .same
    | some route =>
      have next : (s.nextIntent request actual).route = route := by simp [nextIntent,given]
      rcases exempt route given with refresh | peer
      · simp [context refresh] at given
      · exact .toPrivate (by rw [next,peer])
  · have next : (s.nextIntent request actual).route = route := by simp [nextIntent,given]
    rw [next]
    exact .toPublic peer

/-- A correction that went through: the present grant retired, the next revision
installed under a new one behind its barrier. -/
theorem correctTask_ok {request : CorrectionRequest} {corrected : Corrected}
    (h : s.correctTask o request = .ok (corrected,s')) :
    ∃ actual, s.store.tasks.get request.taskId = some actual ∧
      ((s.changeApplied request ∧ s'.authority = s.authority) ∨
      ∃ grant granted deadlines, s.authority.Current request.taskId actual grant ∧
        corrected = ⟨s.nextIntent request actual,true⟩ ∧ granted.id = s.fresh ∧ granted.revokedAt = none ∧
        ((request.contextRefresh → request.route = none) → Authority.Reroutes o request.taskId
          s.store.originDeadlines actual.route (s.nextIntent request actual).route deadlines) ∧
        s'.authority =
          { tasks := s.store.tasks.put request.taskId (s.nextIntent request actual)
            grants := (s.store.grants.put grant.id (s.retiredGrant grant)).put s.fresh granted
            controls := s.store.controls.put request.taskId (s.correctionBarrier request.taskId)
            deadlines
            fresh := s.fresh + 1 }) := by
  obtain ⟨actual,task,h⟩ := bind_ok h
  obtain ⟨linked,link,h⟩ := bind_ok h
  obtain ⟨linkedAuthority,now,_,applied⟩ := linkFollowUp_ok link
  refine ⟨actual,requireTask_ok task,?_⟩
  split at h
  · rename_i done
    cases h
    exact .inl ⟨by simpa [changeApplied,applied] using done,linkedAuthority⟩
  · obtain ⟨grant,held,h⟩ := bind_ok h
    obtain ⟨renewed,renew,h⟩ := bind_ok h
    simp only [Except.ok.injEq,Prod.mk.injEq] at h
    obtain ⟨rfl,rfl⟩ := h
    have noted : (linked.noteChange request).authority = s.authority := by simp [linkedAuthority]
    have notedNow : (linked.noteChange request).now = s.now := by simp [now]
    have names : (linked.noteChange request).fresh = s.fresh := congrArg Authority.fresh noted
    have grants : (linked.noteChange request).store.grants = s.store.grants :=
      congrArg Authority.grants noted
    have next : (linked.noteChange request).nextIntent request actual = s.nextIntent request actual :=
      nextIntent_congr notedNow names
    obtain ⟨renewedAuthority,renewedNow⟩ := renewOrigin_authority renew
    have made := correctedGrant_spec (o := o) (s := renewed) request actual
      ((linked.noteChange request).nextIntent request actual) ((linked.noteChange request).retiredGrant grant)
    generalize made' : renewed.correctedGrant o request actual _ _ = granted at made ⊢
    have clock : granted.2.now = s.now := by
      rw [← made',correctedGrant_now,renewedNow,retireGrant_now,notedNow]
    refine .inr ⟨grant,granted.1,renewed.store.originDeadlines,⟨requireTask_ok task,?_⟩,by rw [next],
      ?_,made.2.2,fun context => ?_,?_⟩
    · have found := requireGrant_ok held
      rwa [grants] at found
    · rw [made.2.1]; exact names
    · have reroutes := @renewOrigin_reroutes _ s request actual _ _ renew context
      have deadlines : ((linked.noteChange request).retireGrant request.taskId grant).store.originDeadlines =
        s.store.originDeadlines := congrArg Authority.deadlines noted
      rwa [deadlines] at reroutes
    · have chain : granted.2.authority = _ := made.1.trans (renewedAuthority.trans rfl)
      rw [installCorrection_authority,correctionBarrier_congr clock,next]
      have tasks : granted.2.store.tasks = s.store.tasks :=
        (congrArg Authority.tasks chain).trans (congrArg Authority.tasks noted)
      have controls : granted.2.store.controls = s.store.controls :=
        (congrArg Authority.controls chain).trans (congrArg Authority.controls noted)
      have granting : granted.2.store.grants = s.store.grants.put grant.id (s.retiredGrant grant) := by
        have := congrArg Authority.grants chain
        rw [← grants,← retiredGrant_congr notedNow]
        exact this
      have later : granted.2.fresh = s.fresh + 1 := by
        have := congrArg Authority.fresh chain
        rw [← names]
        exact this
      have dated : granted.2.store.originDeadlines = renewed.store.originDeadlines :=
        congrArg Authority.deadlines chain
      rw [tasks,controls,granting]
      simp only [authority,later,dated]
      rfl

/-! ## Resumption and new tasks -/

theorem resumedGrant_ok {granted : Grant}
    (h : s.resumedGrant o intent restored = .ok (granted,s')) :
    s'.authority = s.authority ∧ granted.id = restored.grantId := by
  unfold resumedGrant at h
  split at h
  · obtain ⟨prior,_,h⟩ := map_ok h
    have same := inheritGrant_authority (o := o) (s := (s.makeGrant o restored).2) intent prior
      (s.makeGrant o restored).1
    rw [h] at same
    exact ⟨same,congrArg (fun made => made.1.id) h.symm⟩
  · cases h
    exact ⟨rfl,rfl⟩

theorem resumeTask_ok (h : s.resumeTask o T = .ok ((),s')) :
    ∃ intent granted, s.store.tasks.get T = some intent ∧ granted.id = s.fresh ∧
      s'.authority =
        { s.authority with
          tasks := s.store.tasks.put intent.id { intent with grantId := s.fresh }
          grants := s.store.grants.put s.fresh granted
          controls := s.store.controls.delete intent.id
          fresh := s.fresh + 1 } := by
  obtain ⟨intent,task,h⟩ := bind_ok h
  obtain ⟨⟨granted,made⟩,resumed,h⟩ := bind_ok h
  obtain ⟨same,id⟩ := resumedGrant_ok resumed
  cases h
  refine ⟨intent,granted,requireTask_ok task,id,?_⟩
  have tasks : made.store.tasks = s.store.tasks := congrArg Authority.tasks same
  have grants : made.store.grants = s.store.grants := congrArg Authority.grants same
  have controls : made.store.controls = s.store.controls := congrArg Authority.controls same
  have deadlines : made.store.originDeadlines = s.store.originDeadlines := congrArg Authority.deadlines same
  have fresh : made.fresh = s.fresh + 1 := congrArg Authority.fresh same
  simp only [authority,tasks,grants,controls,deadlines,fresh]

theorem installTask_authority (obs : Observation) (intent : TaskIntent) :
    ∃ granted, granted.id = intent.grantId ∧ (s.installTask o obs intent).authority =
      { s.authority with
        tasks := s.store.tasks.put intent.id intent
        grants := s.store.grants.put intent.grantId granted } :=
  ⟨({ s with
      store.sources := s.store.sources.put (refKey obs.ref) intent.id
      store.tasks := s.store.tasks.put intent.id intent }.makeGrant o intent).1,rfl,rfl⟩

theorem openOrigin_authority (obs : Observation) (intent : TaskIntent) :
    (intent.route.peerId = o.privateRoute.peerId ∧ s.openOrigin o obs intent = s) ∨
    ∃ granted deadline, granted.id = intent.grantId ∧ deadline.peerId = some intent.route.peerId ∧
      (s.openOrigin o obs intent).authority =
        { s.authority with
          grants := s.store.grants.put intent.grantId granted
          deadlines := s.store.originDeadlines.put intent.id deadline } := by
  unfold openOrigin
  split
  · rename_i peer
    exact .inl ⟨peer,rfl⟩
  · let deadline : OriginDeadline :=
      { taskId := intent.id
        peerId := some intent.route.peerId
        expiresAt := obs.sentAt.getD 0 + o.originTtl }
    let dated := { s with store.originDeadlines := s.store.originDeadlines.put intent.id deadline }
    exact .inr ⟨(dated.makeGrant o intent).1,deadline,rfl,rfl,rfl⟩

/-- A new task takes two names, and has a public deadline when its route is public. -/
theorem createTask_authority (obs : Observation) (command : String) (route : Route) :
    ((s.createTask o obs command route).1 = (s.newIntent o obs command route,false) ∧
      (s.createTask o obs command route).2.authority = { s.authority with fresh := s.fresh + 2 }) ∨
    ∃ granted deadlines, (s.createTask o obs command route).1 = (s.newIntent o obs command route,true) ∧
      granted.id = s.fresh + 1 ∧
      Authority.Reroutes o (.uuid s.fresh) s.store.originDeadlines o.privateRoute route deadlines ∧
      (s.createTask o obs command route).2.authority =
        { s.authority with
          tasks := s.store.tasks.put (.uuid s.fresh) (s.newIntent o obs command route)
          grants := s.store.grants.put granted.id granted
          deadlines
          fresh := s.fresh + 2 } := by
  unfold createTask
  split
  · exact .inl ⟨rfl,rfl⟩
  · let intent := s.newIntent o obs command route
    let drawn := { s with fresh := s.fresh + 2 }
    obtain ⟨first,firstId,installed⟩ := installTask_authority (o := o) (s := drawn) obs intent
    rcases openOrigin_authority (o := o) (s := drawn.installTask o obs intent) obs intent with
      ⟨peer,same⟩ | ⟨second,deadline,secondId,peer,opened⟩
    · refine .inr ⟨first,_,rfl,firstId,.toPrivate peer,?_⟩
      show ((drawn.installTask o obs intent).openOrigin o obs intent).authority = _
      rw [same,installed,firstId]
      rfl
    · refine .inr ⟨second,_,rfl,secondId,.toPublic peer,?_⟩
      have grants : (drawn.installTask o obs intent).store.grants =
        s.store.grants.put intent.grantId first := congrArg Authority.grants installed
      have deadlines : (drawn.installTask o obs intent).store.originDeadlines =
        s.store.originDeadlines := congrArg Authority.deadlines installed
      show ((drawn.installTask o obs intent).openOrigin o obs intent).authority = _
      rw [opened,installed,grants,deadlines,Table.put_put_same,secondId]
      rfl

theorem openControl_authority (id : TaskId) (source : MessageRef) (target : Option TaskId) :
    (∃ existing, s.store.tasks.get id = some existing ∧ (s.openControl o id source target).1 = existing ∧
      (s.openControl o id source target).2 = s) ∨
    ∃ intent granted, s.store.tasks.get id = none ∧ intent.id = id ∧ intent.revision = 1 ∧
      intent.route = o.privateRoute ∧ intent.grantId = s.fresh ∧ granted.id = s.fresh ∧
      (s.openControl o id source target).2.authority =
        { s.authority with
          tasks := s.store.tasks.put id intent
          grants := s.store.grants.put granted.id granted
          fresh := s.fresh + 1 } := by
  unfold openControl
  split
  · rename_i existing found
    exact .inl ⟨existing,found,rfl,rfl⟩
  · rename_i new
    exact .inr ⟨_,_,new,rfl,rfl,rfl,rfl,rfl,rfl⟩

/-! ## Tokens and effects -/

theorem issue_ok {context : ToolContext} {token : Token} (h : s.issue o context = .ok (token,s')) :
    (∃ current, s.validateContext context false = .ok current) ∧ token = s.fresh ∧
      s' = { s with
        fresh := s.fresh + 1
        store.contexts := s.store.contexts.put s.fresh { context,expiresAt := s.now + o.contextTtl } } := by
  obtain ⟨current,valid,h⟩ := bind_ok h
  cases h
  exact ⟨⟨current,valid⟩,rfl,rfl⟩

/-- What a valid context agrees with. -/
theorem validateContext_ok {context : ToolContext} {current : TaskIntent × Grant}
    (h : s.validateContext context additional = .ok current) :
    s.store.tasks.get context.taskId = some current.1 ∧ s.store.grants.get context.grantId = some current.2 ∧
      current.1.grantId = current.2.id ∧ current.2.taskId = current.1.id ∧
      current.1.revision = context.intentRevision ∧ current.2.revision = context.grantRevision ∧
      current.2.revokedAt = none ∧ s.passed current.2.expiresAt = false := by
  unfold validateContext at h
  split at h
  · rename_i intent grant task granted
    split at h
    · contradiction
    · rename_i fits
      simp only [not_or,not_not] at fits
      have : current = (intent,grant) := by
        split at h
        · exact (Except.ok.inj h).symm
        · split at h
          · exact (Except.ok.inj h).symm
          · contradiction
      subst this
      simpa [task,granted] using fits
  · contradiction

/-- A token resolves to its record, whose context is valid at this moment. -/
theorem resolve_ok {token : Token} {record : ContextRecord} (h : s.resolve token = .ok record) :
    s.store.contexts.get token = some record ∧ ∃ current, s.validateContext record.context = .ok current := by
  unfold resolve at h
  split at h
  · contradiction
  · rename_i stored found
    split at h
    · contradiction
    · obtain ⟨current,valid,rfl⟩ := map_ok h
      exact ⟨found,current,valid⟩

/-- Binding a token changes the run it names and nothing else about it. -/
theorem bindToken_ok {token : Token} {binding : RunBinding} (h : s.bindToken token binding = .ok ((),s')) :
    ∃ record, s.store.contexts.get token = some record ∧
      s' = { s with store.contexts := s.store.contexts.put token (boundRecord record binding.runId) } := by
  obtain ⟨record,resolved,h⟩ := bind_ok h
  split at h
  · contradiction
  · cases h
    exact ⟨record,(resolve_ok resolved).1,rfl⟩

theorem validateContext_error {context : ToolContext}
    (h : s.validateContext context additional = .error e) : e.isAuthority := by
  unfold validateContext at h
  split at h
  · split at h
    · cases h; rfl
    · split at h
      · contradiction
      · split at h
        · contradiction
        · cases h; rfl
  · cases h; rfl

theorem resolve_error {token : Token} (h : s.resolve token = .error e) : e.isAuthority := by
  unfold resolve at h
  split at h
  · cases h; rfl
  · split at h
    · cases h; rfl
    · exact validateContext_error (map_error h)

/-- Whatever keeps a token from being bound is a refusal of authority. -/
theorem bindToken_error {token : Token} {binding : RunBinding} {e : Err}
    (h : s.bindToken token binding = .error e) : e.isAuthority := by
  rcases bind_error h with failed | ⟨record,_,h⟩
  · exact resolve_error failed
  · split at h
    · cases h; rfl
    · contradiction

theorem claim_ok {context : ToolContext} {request : EffectRequest} {id : EffectId} {payloadHash : String}
    {effect : Effect} (h : s.claim o context request id payloadHash = .ok (effect,s')) :
    (∃ current, s.validateContext context = .ok current) ∧ s.store.effects.get id = none ∧
      effect = { s.newEffect context request id payloadHash with state := .dispatching } ∧
      s' = { s with store.effects := s.store.effects.put id effect } := by
  obtain ⟨current,valid,h⟩ := bind_ok h
  obtain ⟨_,_,h⟩ := bind_ok h
  obtain ⟨_,_,h⟩ := bind_ok h
  split at h
  · contradiction
  · rename_i new
    cases h
    exact ⟨⟨current,valid⟩,new,rfl,rfl⟩

/-- A settlement is written unless the stored record is verified by now. -/
theorem settle_ok {effect : Effect} {result : EffectResult} {settled : Settled}
    (h : s.settle effect result = .ok (settled,s')) :
    (∃ existing, s.store.effects.get effect.id = some existing ∧ existing.state = .verified ∧ s' = s) ∨
    ((∀ existing, s.store.effects.get effect.id = some existing → existing.state ≠ .verified) ∧
      ∃ state, s' = { s with
        store.effects := s.store.effects.put effect.id (s.settledEffect effect result state) }) := by
  unfold settle at h
  split at h
  · contradiction
  · rename_i state _
    split at h
    · rename_i existing found
      cases h
      obtain ⟨stored,verified⟩ := Option.filter_eq_some_iff.mp found
      exact .inl ⟨existing,stored,by simpa using verified,rfl⟩
    · rename_i open'
      cases h
      refine .inr ⟨fun existing stored verified => ?_,state,rfl⟩
      simp [stored,verified] at open'

@[simp] theorem captureOwnReceipt_authority (effect : Effect) :
    (s.captureOwnReceipt o effect).authority = s.authority := by
  unfold captureOwnReceipt
  split
  · split
    · rfl
    · simp only
      split <;> rfl
  · rfl

end State

/-- How commands are issued: a context refresh names no route, and a control reply
never takes the name of an ordinary task. -/
def Cmd.Wellformed : Cmd → Prop
  | .correctTask request => request.contextRefresh → request.route = none
  | .openControl id _ _ => ∀ n, id ≠ .uuid n
  | _ => True

section commands

variable {o : Options} {s : State}

theorem cancelTask_step (h : s.cancelTask o T = .ok ((),s')) : Authority.Step o s.authority s'.authority:= by
  obtain ⟨intent,grant,current,same⟩ := State.cancelTask_ok h
  rw [same]
  exact .stop current (State.revokedGrant_amends grant) rfl

theorem holdTask_step {reason : String} {resume : Bool}
    (h : s.holdTask o T reason resume = .ok ((),s')) : Authority.Step o s.authority s'.authority := by
  obtain ⟨intent,_,⟨_,rfl⟩ | ⟨grant,current,_,same⟩⟩ := State.holdTask_ok h
  · exact .keep
  · rw [same]
    exact .stop current (State.revokedGrant_amends grant) rfl

theorem correctTask_step {request : CorrectionRequest} {corrected : Corrected}
    (h : s.correctTask o request = .ok (corrected,s')) (context : request.contextRefresh → request.route = none) :
    Authority.Step o s.authority s'.authority := by
  obtain ⟨actual,_,⟨_,same⟩ | ⟨grant,granted,deadlines,current,_,id,_,reroutes,same⟩⟩ := State.correctTask_ok h
  · rw [same]
    exact .keep
  · rw [same]
    exact .correct current (State.retiredGrant_amends grant) rfl rfl rfl rfl id (reroutes context) rfl

theorem resumeTask_step (valid : s.authority.Valid o)
    (h : s.resumeTask o T = .ok ((),s')) : Authority.Step o s.authority s'.authority := by
  obtain ⟨intent,granted,task,id,same⟩ := State.resumeTask_ok h
  obtain rfl : intent.id = T := (valid.task T intent task).1
  rw [same]
  exact @Authority.Step.resume o s.authority intent.id intent granted task id

theorem createTask_step (valid : s.authority.Valid o) (obs : Observation) (command : String) (route : Route) :
    Authority.Step o s.authority (s.createTask o obs command route).2.authority := by
  rcases State.createTask_authority (o := o) (s := s) obs command route with
    ⟨_,same⟩ | ⟨granted,deadlines,_,id,routed,same⟩
  · rw [same]
    exact .draw 2
  · rw [same]
    have new : s.authority.tasks.get (.uuid s.fresh) = none := by
      cases found : s.authority.tasks.get (.uuid s.fresh) with
      | none => rfl
      | some intent => exact absurd (valid.named _ _ found) (Nat.lt_irrefl _)
    refine .create new rfl rfl (fun m same => ?_) ?_ ?_ id.symm routed
    · cases same
      exact Nat.lt_add_of_pos_right (by decide)
    · rw [id]; exact Nat.le_succ _
    · rw [id]; exact Nat.lt_succ_self _

theorem openControl_step (id : TaskId) (named : ∀ n, id ≠ .uuid n) (source : MessageRef) (target : Option TaskId) :
    Authority.Step o s.authority (s.openControl o id source target).2.authority := by
  rcases State.openControl_authority (o := o) (s := s) id source target with
    ⟨_,_,_,same⟩ | ⟨intent,granted,new,taskId,revision,route,grantId,granting,same⟩
  · rw [same]
    exact .keep
  · rw [same]
    refine .create new taskId revision (fun m same => (named m same).elim) ?_ ?_ ?_ ?_
    · rw [granting]; exact Nat.le_refl _
    · rw [granting]; exact Nat.lt_succ_self _
    · rw [grantId,granting]
    · rw [route]; exact .same

/-- A transaction steps the authority when its success does. -/
theorem transact_step {α : Type} {r : Except Err (α × State)}
    (h : ∀ a s', r = .ok (a,s') → Authority.Step o s.authority s'.authority) :
    Authority.Step o s.authority (transact s r).2.authority := by
  rcases transact_cases s r with ⟨a,s',same,done⟩ | ⟨e,failed⟩
  · rw [done]
    exact h a s' same
  · rw [failed]
    exact .keep

/-- The commands that write intentions, grants or controls. -/
def Cmd.governs : Cmd → Bool
  | .refreshGrant _ _ _ _ | .narrowGrant _ _ | .cancelTask _ | .holdTask _ _ _ | .correctTask _
  | .releaseControl _ | .resumeTask _ | .createTask _ _ _ | .openControl _ _ _ => true
  | _ => false

theorem transact_ungoverned {α : Type} {r : Except Err (α × State)}
    (h : ∀ a s', r = .ok (a,s') → ∃ n, s'.authority = { s.authority with fresh := s.fresh + n }) :
    ∃ n, (transact s r).2.authority = { s.authority with fresh := s.fresh + n } := by
  rcases transact_cases s r with ⟨a,s',same,done⟩ | ⟨e,failed⟩
  · rw [done]
    exact h a s' same
  · rw [failed]
    exact ⟨0,rfl⟩

/-- The others at most draw names. -/
theorem exec_ungoverned (o : Options) (s : State) {cmd : Cmd} (other : cmd.governs = false) :
    ∃ n, (exec o cmd s).2.authority = { s.authority with fresh := s.fresh + n } := by
  cases cmd with
  | issue context =>
    refine transact_ungoverned fun token s' h => ?_
    obtain ⟨_,_,rfl⟩ := State.issue_ok h
    exact ⟨1,rfl⟩
  | bindToken token binding =>
    refine transact_ungoverned fun _ s' h => ?_
    obtain ⟨_,_,rfl⟩ := State.bindToken_ok h
    exact ⟨0,rfl⟩
  | revokeToken token =>
    show ∃ n, (s.revokeToken token).authority = _
    unfold State.revokeToken
    split
    · exact ⟨0,rfl⟩
    · split <;> exact ⟨0,rfl⟩
  | claim token context request id payloadHash =>
    refine transact_ungoverned fun _ s' h => ?_
    obtain ⟨_,_,_,rfl⟩ := State.claim_ok h
    exact ⟨0,rfl⟩
  | settle effect result =>
    refine transact_ungoverned fun _ s' h => ?_
    obtain ⟨_,_,_,rfl⟩ | ⟨_,_,rfl⟩ := State.settle_ok h <;> exact ⟨0,rfl⟩
  | captureReceipt effect => exact ⟨0,State.captureOwnReceipt_authority effect⟩
  | cancelPrepared id =>
    show ∃ n, (s.cancelPrepared id).authority = _
    unfold State.cancelPrepared
    split
    · exact ⟨0,rfl⟩
    · split <;> exact ⟨0,rfl⟩
  | baseline intent grant => exact ⟨0,State.grantBaseline_authority intent grant⟩
  | reserve admission =>
    show ∃ n, (s.reserve admission).2.authority = _
    unfold State.reserve
    split <;> exact ⟨0,rfl⟩
  | loseReservation key =>
    show ∃ n, (s.loseReservation key).authority = _
    unfold State.loseReservation
    split
    · exact ⟨0,rfl⟩
    · split <;> exact ⟨0,rfl⟩
  | receive key obs =>
    show ∃ n, (s.receive key obs).authority = _
    unfold State.receive
    split <;> exact ⟨0,rfl⟩
  | refreshGrant | narrowGrant | cancelTask | holdTask | correctTask | releaseControl | resumeTask | createTask
  | openControl => cases other
  | _ => exact ⟨0,rfl⟩

/-- Every command refines an authority step. -/
theorem exec_step (valid : s.authority.Valid o) {cmd : Cmd} (formed : cmd.Wellformed) :
    Authority.Step o s.authority (exec o cmd s).2.authority := by
  cases governs : cmd.governs with
  | false =>
    obtain ⟨n,same⟩ := exec_ungoverned o s governs
    rw [same]
    exact .draw n
  | true =>
    cases cmd with
    | refreshGrant intent grant baseline prepared =>
      refine transact_step fun _ s' h => ?_
      obtain ⟨actual,current,held,_,rfl | ⟨next,rfl,amends⟩⟩ := State.refreshGrant_ok h
      · exact .keep
      · exact .amend held amends
    | narrowGrant T peerId =>
      refine transact_step fun _ s' h => ?_
      obtain ⟨intent,grant,current,rfl⟩ := State.narrowGrant_ok h
      exact .amend current (State.narrowedGrant_amends peerId grant)
    | cancelTask T => exact transact_step fun _ s' h => cancelTask_step h
    | holdTask T reason resume => exact transact_step fun _ s' h => holdTask_step h
    | correctTask request => exact transact_step fun _ s' h => correctTask_step h formed
    | releaseControl T => exact .release T
    | resumeTask T => exact transact_step fun _ s' h => resumeTask_step valid h
    | createTask obs command route => exact createTask_step valid obs command route
    | openControl id source target => exact openControl_step id formed source target
    | _ => cases governs

end commands

end Neurobro.Agent
