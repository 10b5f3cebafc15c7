import Neurobro.Agent.CorrectionConduct
import Neurobro.Agent.Origin

/-! Observations and recovery keep the discipline. Ordinary speech of the owner leaves
every live public draft of its chat under review, and a recovered task is admitted
only when nothing before it is open. -/
namespace Neurobro.Agent

open Coop

variable {o : Options} {i : Nat}

/-- What every command keeps of the store lasts. -/
theorem store_lasting {A : State → Prop} (same : ∀ {s s' : State}, s'.store = s.store → A s → A s')
    (kept : ∀ {s : State} {cmd : Cmd}, s.authority.Valid o → cmd.Wellformed → A s → A (exec o cmd s).2) :
    Lasting (discipline o) fun c => A c.state := by
  intro who c c' move a
  rcases move_cases move with ⟨store,_⟩ | ⟨_,cmd,_,rfl,formed,_⟩
  · exact same store a
  · exact kept (Move.orderly move).authority formed a

/-! ## Withdrawing public drafts -/

/-- The draft of this task is under review, if the speech concerns it. -/
def Withdrawn (o : Options) (obs : Observation) (intent : TaskIntent) (s : State) : Prop :=
  intent.source.peerId = obs.ref.peerId → intent.route.peerId ≠ o.privateRoute.peerId →
    sameRef intent.source obs.ref = false →
    ∀ grant, s.store.grants.get intent.grantId = some grant → grant.revokedAt = none →
      (s.store.originReview.get intent.id).isSome

/-- Commands that revoke nothing and keep every review. -/
structure Narrows (s s' : State) : Prop where
  tasks : s'.store.tasks = s.store.tasks
  grants : ∀ g grant', s'.store.grants.get g = some grant' →
    ∃ grant, s.store.grants.get g = some grant ∧ grant.revokedAt = grant'.revokedAt
  reviews : ∀ T, (s.store.originReview.get T).isSome → (s'.store.originReview.get T).isSome

theorem Narrows.withdrawn (narrows : Narrows s s') (withdrawn : Withdrawn o obs intent s) : Withdrawn o obs intent s':= by
  intro source route other grant' stored live
  obtain ⟨grant,before,same⟩ := narrows.grants _ grant' stored
  exact narrows.reviews _ (withdrawn source route other grant before (same.trans live))

theorem Narrows.refl (s : State) : Narrows s s := ⟨rfl,fun _ grant stored => ⟨grant,stored,rfl⟩,fun _ h => h⟩

theorem narrowGrant_narrows (s : State) (T : TaskId) (P : PeerId) (valid : s.authority.Valid o) :
    Narrows s (exec o (.narrowGrant T P) s).2 := by
  show Narrows s (transact s (s.narrowGrant T P)).2
  rcases transact_cases s (s.narrowGrant T P) with ⟨_,s',narrowed,done⟩ | ⟨e,failed⟩
  · rw [done]
    obtain ⟨intent,grant,current,rfl⟩ := State.narrowGrant_ok narrowed
    refine ⟨rfl,fun g grant' stored => ?_,fun _ h => h⟩
    by_cases same : g = grant.id
    · subst same
      have : grant' = State.narrowedGrant P grant := by simpa using stored.symm
      exact ⟨grant,(valid.grantId current).1 ▸ current.2,by rw [this]; rfl⟩
    · exact ⟨grant',by simpa [Table.get_put,same] using stored,rfl⟩
  · rw [failed]
    exact .refl s

theorem cancelPrepared_narrows (s : State) (id : EffectId) : Narrows s (s.cancelPrepared id) := by
  unfold State.cancelPrepared
  split
  · exact .refl s
  · split
    · exact ⟨rfl,fun _ grant stored => ⟨grant,stored,rfl⟩,fun _ h => h⟩
    · exact .refl s

/-- The tasks as they were listed, and the drafts of those done under review. -/
structure Reviewing (o : Options) (obs : Observation) (tasks : Table TaskId TaskIntent)
    (done : TaskIntent → Prop) (c : Instant o) : Prop where
  tasks : c.state.store.tasks = tasks
  withdrawn : ∀ intent, done intent → Withdrawn o obs intent c.state

section reviewing

variable {obs : Observation} {tasks : Table TaskId TaskIntent} {done : TaskIntent → Prop} {cmd : Cmd}

theorem reviewing_act (free : ∀ (c : Instant o), cmd.Wellformed ∧ Guard i cmd c)
    (narrows : ∀ s : State, s.authority.Valid o → Narrows s (exec o cmd s).2) :
    Triple (discipline o) i (Reviewing o obs tasks done) (commit cmd)
      (onResult (fun _ => Reviewing o obs tasks done) fun _ => False) := by
  refine .act (discipline_sound o) (fun c _ _ => free c) fun c orderly reviewing _ => ?_
  have step := narrows c.state orderly.authority
  exact ⟨step.tasks.trans reviewing.tasks,fun intent member => step.withdrawn (reviewing.withdrawn intent member)⟩

theorem revokeTask_reviewing (T : TaskId) :
    Triple (discipline o) i (Reviewing o obs tasks done) (revokeTask T) (onOk fun _ => Reviewing o obs tasks done) := by
  refine .bind (Q := onOk fun _ => Reviewing o obs tasks done) (.look fun _ _ known => known) (fun listed => ?_)
    fun _ _ _ _ => trivial
  refine (Triple.each (E := fun _ _ => True) fun e _ => .ite (fun _ => ?_) fun _ => .pure fun _ _ known => known).post ?_
  · refine (@reviewing_act _ _ _ _ _ (.cancelPrepared e.id) (fun _ => ⟨trivial,trivial⟩) fun s _ =>
        cancelPrepared_narrows s e.id).post ?_
    rintro (e | _) c _ known
    · trivial
    · exact known
  · rintro (e | _) c _ known
    · trivial
    · exact known

/-- A task of the list ends with its draft under review, or had none that is live. -/
theorem invalidateOriginDraft_spec (intent : TaskIntent) :
    Triple (discipline o) i (Reviewing o obs tasks done) (invalidateOriginDraft obs intent)
      (onOk fun _ => Reviewing o obs tasks fun x => done x ∨ x = intent) := by
  have add : ∀ {c : Instant o}, Reviewing o obs tasks done c → Withdrawn o obs intent c.state →
      Reviewing o obs tasks (fun x => done x ∨ x = intent) c := by
    rintro c known new
    refine ⟨known.tasks,?_⟩
    rintro x (old | rfl)
    · exact known.withdrawn x old
    · exact new
  refine .ite (fun exempt => .pure fun c _ known => add known ?_) fun _ => ?_
  · intro source route other
    simp [source,route,other] at exempt
  refine .bind (Q := onOk fun (grant : Grant) (c : Instant o) => c.state.store.grants.get intent.grantId = some grant ∧
    Reviewing o obs tasks done c) (.check fun c _ known => ?_) (fun grant => ?_) fun _ _ _ _ => trivial
  · cases stored : c.state.requireGrant intent.grantId with
    | error e => trivial
    | ok grant => exact ⟨State.requireGrant_ok stored,known⟩
  refine .ite (fun revoked => .pure fun c _ known => add known.2 ?_) fun _ => ?_
  · intro _ _ _ grant' stored live
    cases Option.some.inj (stored.symm.trans known.1)
    simp [live] at revoked
  refine .bind ((@reviewing_act _ _ _ _ _ (.narrowGrant intent.id obs.ref.peerId) (fun _ => ⟨trivial,trivial⟩) fun s valid =>
    narrowGrant_narrows s intent.id obs.ref.peerId valid).pre fun _ _ known => known.2) (fun r => ?_)
    fun _ _ _ no => no.elim
  refine .bind (Q := onOk fun _ => Reviewing o obs tasks done) (.lift fun c _ known => ?_) (fun _ => ?_)
    fun _ _ _ _ => trivial
  · cases r with
    | error e => trivial
    | ok _ => exact known
  refine .bind (revokeTask_reviewing intent.id) (fun _ => ?_) fun _ _ _ _ => trivial
  refine .act (discipline_sound o) (fun _ _ _ => ⟨trivial,trivial⟩) fun c _ known _ => ?_
  let review : OriginReview := { taskId := intent.id,ref := obs.ref,reason := manualSpeech }
  have reviewed : ∀ T, ((c.state.store.originReview.put intent.id review).get T).isSome ↔
      T = intent.id ∨ (c.state.store.originReview.get T).isSome := by
    intro T
    by_cases same : T = intent.id <;> simp [Table.get_put,same]
  have narrows : Narrows c.state (c.act i (.reviewOrigin review)).state :=
    ⟨rfl,fun _ grant stored => ⟨grant,stored,rfl⟩,fun T old => (reviewed T).mpr (.inr old)⟩
  refine ⟨known.tasks,?_⟩
  rintro x (old | rfl)
  · exact narrows.withdrawn (known.withdrawn x old)
  · exact fun _ _ _ _ _ _ => (reviewed _).mpr (.inl rfl)

/-- After the loop every live draft of the chat is under review. -/
theorem invalidateOriginDrafts_reviewed (obs : Observation) :
    Triple (discipline o) i (fun _ => True) (invalidateOriginDrafts obs)
      (onOk fun _ c => Reviewed o obs c.state) := by
  refine .named fun c₀ _ _ => ?_
  refine .bind (Q := onOk fun listed c => listed = c₀.state.tasks o ∧
    Reviewing o obs c₀.state.store.tasks (fun _ => False) c) (.look fun c _ same => ?_) (fun listed => .assume ?_)
    fun _ _ _ _ => trivial
  · exact ⟨by rw [same],by rw [same],fun _ no => no.elim⟩
  · rintro rfl
    refine (Triple.each_done (fun intent _ done => invalidateOriginDraft_spec intent) _).post ?_
    rintro (e | _) c orderly known
    · trivial
    · intro _ T intent grant draft
      have task : c₀.state.store.tasks.get T = some intent := known.tasks ▸ draft.current.1
      have named := (orderly.authority.task T intent draft.current.1).1
      rw [← named]
      exact known.withdrawn intent (.inr (Table.mem_list.mpr ⟨T,task⟩)) draft.source draft.public' draft.other
        grant draft.current.2 draft.live

end reviewing

/-! ## Commands -/

theorem calm_reported (disposition : Disposition) (T : TaskId) : Calm (reported disposition T : M o IngestResult) :=
  .bind (.look _) fun _ => .pure _

theorem calm_followUp (obs : Observation) (eventKey : EventKey) (T : TaskId) (instruction : String)
    (route : Route) (authorizedAt : Stamp) :
    Calm (followUp obs eventKey T instruction route authorizedAt : M o IngestResult) :=
  .bind (.look _) fun _ => .ite (.pure _) <|
    .bind (calm_await (applyCorrection_conduct fun refresh => nomatch refresh)) fun _ => calm_reported _ _

/-- Nothing precedes the first revision. -/
theorem priorClosed_first (orderly : Orderly o c) (reached : Reached T 1 c) : PriorClosed T 1 c:= by
  refine ⟨reached,fun q first admitted => ?_⟩
  obtain ⟨a,found⟩ := Option.isSome_iff_exists.mp admitted
  have := (orderly.admission _ a found).2.1
  simp only at this
  omega

theorem calm_acceptCommand (obs : Observation) (command : String) :
    Calm (acceptCommand obs command : M o IngestResult) := by
  intro i _
  refine .seq (Q := onResult (fun (r : TaskIntent × Bool) c => r.2 → PriorClosed r.1.id r.1.revision c)
    fun _ => False) (.act (discipline_sound o) (fun _ _ _ => ⟨trivial,trivial⟩) fun c orderly _ after => ?_)
    fun ⟨intent,created⟩ => ?_
  · show (c.state.createTask o obs command (routeFor o obs command)).1.2 → _
    intro made
    rcases State.createTask_authority (o := o) (s := c.state) obs command (routeFor o obs command) with
      ⟨no,_⟩ | ⟨granted,deadlines,yes,_,_,same⟩
    · simp [no] at made
    · have result : (exec o (.createTask obs command (routeFor o obs command)) c.state).1 = _ := yes
      have tasks : (c.act i (.createTask obs command (routeFor o obs command))).state.store.tasks = _ :=
        congrArg Authority.tasks same
      rw [result]
      exact priorClosed_first after ⟨_,by rw [tasks]; exact Table.get_put_same _ _ _,Nat.le_refl _⟩
  refine .ite (fun _ => ?_) fun fresh => ?_
  · exact (Quiet.bind (.look _) fun _ => .pure _) |>.triple untaken
  refine .seq (Q := onOk fun _ => PriorClosed intent.id intent.revision)
    (.look fun _ _ closed => closed (by simpa using fresh)) fun replaying => ?_
  refine .ite (fun _ => (calm_reported _ _).triple untaken) fun _ => ?_
  exact .seq (.await (discipline_sound o) (admitIntent_conduct intent) fun _ => .top) fun _ =>
    (calm_reported _ _).triple untaken

theorem calm_handlePlain (obs : Observation) (eventKey : EventKey) (natural : Bool) (command : String)
    (target : Target) : Calm (handlePlain obs eventKey natural command target : M o IngestResult) := by
  refine .ite (.ite (.pure _) (.bind (.look _) fun policy => ?_)) (calm_acceptCommand obs command)
  cases target.task.filter fun t => policy.all fun allows => allows t.id with
  | some task => exact calm_followUp _ _ _ _ _ _
  | none => exact calm_acceptCommand obs command

theorem calm_handleCommand (obs : Observation) (eventKey : EventKey) (natural : Bool) (command : String) :
    Calm (handleCommand obs eventKey natural command : M o IngestResult) := by
  refine .bind (.look _) fun target => .ite (.ite (.pure _) ?_) <| .ite ?_ <| .ite ?_ <|
    .bind (.look _) fun bound => ?_
  · cases target.task with
    | some task => exact calm_reported _ _
    | none => exact .bind (.look _) fun _ => .pure _
  · cases target.task with
    | none => exact .pure _
    | some task => exact .bind (calm_await (calm_applyCancellation _)) fun _ => calm_reported _ _
  · cases target.task with
    | none => exact .pure _
    | some task => exact calm_followUp _ _ _ _ _ _
  · cases target.task.filter fun _ => bound with
    | some task => exact calm_followUp _ _ _ _ _ _
    | none => exact calm_handlePlain _ _ _ _ _

theorem calm_invalidateOriginDrafts (obs : Observation) : Calm (invalidateOriginDrafts obs : M o Unit) :=
  fun _ _ => (invalidateOriginDrafts_reviewed obs).post fun _ _ _ _ => trivial

/-- What follows once a message is known to be addressed to the agent. -/
theorem calm_addressed (obs : Observation) (eventKey : EventKey) (natural : Bool) (control : Bool)
    (command : String) (sourceTask : Option TaskIntent) :
    Calm (match sourceTask with
      | some task => pure { disposition := .duplicate,taskId := some task.id }
      | none =>
        if control then pure (ignored "Control response has no active task")
        else if command = "" then pure (ignored "Empty command")
        else handleCommand obs eventKey natural command : M o IngestResult) := by
  cases sourceTask with
  | some task => exact .pure _
  | none => exact .ite (.pure _) (.ite (.pure _) (calm_handleCommand _ _ _ _))

theorem calm_handleAuthored (obs : Observation) (eventKey : EventKey) (sourceTask : Option TaskIntent) :
    Calm (handleAuthored obs eventKey sourceTask : M o IngestResult) := by
  unfold handleAuthored
  cases sourceTask.filter fun _ => obs.kind = .edit with
  | some task => exact .ite (.bind (calm_held _ _ _) fun _ => .pure _) (calm_followUp _ _ _ _ _ _)
  | none =>
    refine .bind (.look _) fun replyTask => .bind (.look _) fun replySourceTask => .ite ?_ ?_
    · exact .bind (calm_invalidateOriginDrafts obs) fun _ => .pure _
    · exact calm_addressed _ _ _ _ _ _

theorem calm_handleDelete (obs : Observation) : Calm (handleDelete obs : M o IngestResult) := by
  refine .ite (.pure _) (.bind (.look _) fun task => ?_)
  cases task with
  | none => exact .pure _
  | some task => exact .bind (calm_held _ _ _) fun _ => calm_reported _ _

theorem calm_handleObservation (obs : Observation) (eventKey : EventKey) :
    Calm (handleObservation obs eventKey : M o IngestResult) := by
  refine .ite (.pure _) <| .bind (.look _) fun own => .ite (.pure _) <| .ite (calm_handleDelete obs) <|
    .ite (.pure _) <| .bind (.look _) fun sourceTask => .ite ?_ (calm_handleAuthored _ _ _)
  cases sourceTask.filter fun _ => obs.kind = .edit with
  | some task => exact .bind (calm_held _ _ _) fun _ => calm_reported _ _
  | none => exact .pure _

/-! ## Ordinary speech -/

/-- The message is addressed to the agent: by its prefix, its room or what it answers. -/
def Addressed (o : Options) (obs : Observation) (s : State) : Prop :=
  (afterPrefix o.fold o.prefixText (authoredText obs (isNatural o obs))).isSome ∨ isNatural o obs ∨
    (obs.replyTo.bind fun ref => s.store.ownOutputs.get (refKey ref)).isSome ∨
    (obs.replyTo.bind s.taskForSource).isSome

theorem addressed_lasting (obs : Observation) :
    Lasting (discipline o) fun c => Addressed o obs c.state := by
  refine store_lasting (fun {s s'} store addressed => ?_) fun {s cmd} valid formed addressed => ?_
  · unfold Addressed State.taskForSource at *
    rwa [store]
  · rcases addressed with named | natural | output | source
    · exact .inl named
    · exact .inr (.inl natural)
    · cases replied : obs.replyTo with
      | none => simp [replied] at output
      | some ref =>
        simp only [replied,Option.bind_some] at output
        exact .inr (.inr (.inl (by simpa [replied] using exec_output output)))
    · cases replied : obs.replyTo with
      | none => simp [replied] at source
      | some ref =>
        simp only [replied,Option.bind_some] at source
        exact .inr (.inr (.inr (by simpa [replied] using exec_source valid formed source)))

theorem Addressed.reviewed (addressed : Addressed o obs s) : Reviewed o obs s:= by
  intro speech T intent grant draft
  rcases speech.noCommand with quoted | ⟨unnamed,unnatural,output,source⟩
  · simp [draft.unquoted] at quoted
  · rcases addressed with named | natural | replied | sourced
    · simp [unnamed] at named
    · simp [unnatural] at natural
    · simp [output] at replied
    · simp [source] at sourced

theorem handleAuthored_reviewed (obs : Observation) (eventKey : EventKey) (sourceTask : Option TaskIntent)
    (message : obs.kind = .message) :
    Triple (discipline o) i (fun _ => True) (handleAuthored obs eventKey sourceTask)
      (onOk fun _ c => Reviewed o obs c.state) := by
  unfold handleAuthored
  have unedited : sourceTask.filter (fun _ => obs.kind = .edit) = none := by cases sourceTask <;> simp [message]
  simp only [unedited]
  refine .bind (Q := onOk fun replyTask (c : Instant o) =>
    replyTask = obs.replyTo.bind fun ref => c.state.store.ownOutputs.get (refKey ref)) (.look fun _ _ _ => rfl)
    (fun replyTask => ?_) fun _ _ _ _ => trivial
  refine .bind (Q := onOk fun replySource (c : Instant o) =>
    (replyTask = obs.replyTo.bind fun ref => c.state.store.ownOutputs.get (refKey ref)) ∧
    replySource = obs.replyTo.bind c.state.taskForSource) (.look fun _ _ known => ⟨known,rfl⟩)
    (fun replySource => ?_) fun _ _ _ _ => trivial
  refine .ite (fun _ => ?_) fun addressed => ?_
  · refine .bind ((invalidateOriginDrafts_reviewed obs).pre fun _ _ _ => trivial) (fun _ => ?_)
      fun _ _ _ _ => trivial
    exact .pure fun _ _ reviewed => reviewed
  · refine .pre (P := fun c => Addressed o obs c.state) ?_ ?_
    · refine ((calm_addressed _ _ _ _ _ _).keeps untaken (addressed_lasting obs)).post ?_
      rintro (e | _) c _ held
      · trivial
      · exact held.reviewed
    · rintro c _ ⟨rfl,rfl⟩
      refine Classical.byContradiction fun unaddressed => addressed ?_
      simpa [Addressed,not_or,and_assoc] using unaddressed

/-- When an owner's message is no command, what it concerns is under review at the end. -/
theorem handleObservation_reviewed (obs : Observation) (eventKey : EventKey)
    (message : obs.kind = .message) :
    Triple (discipline o) i (fun _ => True) (handleObservation obs eventKey)
      (onOk fun _ c => Reviewed o obs c.state) := by
  refine .ite (fun unstamped => .pure fun c _ _ => ?_) fun _ => ?_
  · intro speech
    simp [Option.isSome_iff_ne_none.mp speech.stamped.1,Option.isSome_iff_ne_none.mp speech.stamped.2] at unstamped
  refine .bind (Q := onOk fun own (c : Instant o) => own = (c.state.ownOutput o obs).isSome)
    (.look fun _ _ _ => rfl) (fun own => ?_) fun _ _ _ _ => trivial
  refine .ite (fun owned => .pure fun c _ known => ?_) fun _ => ?_
  · intro speech
    simp [show own = _ from known,speech.notOwn] at owned
  refine .ite (fun deleted => by simp [message] at deleted) fun _ => ?_
  refine .ite (fun stranger => .pure fun c _ _ speech => ?_) fun _ => ?_
  · simp [speech.authentic] at stranger
  refine .bind (Q := fun _ _ => True) (.look fun _ _ _ => trivial) (fun sourceTask => ?_) fun _ _ _ _ => trivial
  refine .ite (fun quoted => ?_) fun _ => handleAuthored_reviewed obs eventKey sourceTask message
  have unedited : sourceTask.filter (fun _ => obs.kind = .edit) = none := by cases sourceTask <;> simp [message]
  simp only [unedited]
  exact .pure fun c _ _ _ T intent grant draft => by simp [draft.unquoted] at quoted

theorem calm_processObservation (obs : Observation) (eventKey : EventKey) :
    Calm (processObservation obs eventKey : M o IngestResult) := by
  intro i _
  have reviewed : Triple (discipline o) i (fun _ => True) (handleObservation obs eventKey)
      (onOk fun _ c => Reviewed o obs c.state) := by
    by_cases message : obs.kind = .message
    · exact handleObservation_reviewed obs eventKey message
    · refine (calm_handleObservation obs eventKey i untaken).post ?_
      rintro (e | _) c _ _
      · trivial
      · exact fun speech => (message speech.kind).elim
  refine .seq reviewed fun result => ?_
  exact .seq (Q := fun _ _ => True) (.act (discipline_sound o) (fun c _ review => ⟨trivial,review⟩)
    fun _ _ _ _ => trivial) fun _ => .pure fun _ _ _ => trivial

/-! ## Recovery -/

theorem calm_replayObservation (pending : ReceivedObservation) : Calm (replayObservation pending : M o Unit) :=
  .bind (.look _) fun _ => .ite (.pure _) <|
    .bind (calm_await (calm_processObservation _ _)) fun _ => calm_act trivial fun _ _ => trivial

theorem calm_replayObservations : Calm (replayObservations : M o Unit) :=
  .bind (.look _) fun _ => .each fun pending _ => calm_replayObservation pending

theorem calm_loseReservations : Calm (loseReservations : M o Unit) :=
  .bind (.look _) fun _ => .each fun _ _ => .ite (calm_act trivial fun _ _ => trivial) (.pure _)

theorem calm_stopOpenChildren (reason : String) : Calm (stopOpenChildren reason : M o Unit) :=
  .bind (.look _) fun _ => .each fun _ _ => .bind (calm_await (calm_stopChildren _ _ _)) fun _ => .pure _

theorem restoreRun_conduct (snapshot : RunSnapshot) :
    Triple (discipline o) i (Registered snapshot) (restoreRun snapshot) fun _ _ => True := by
  have lasting := registered_lasting (o := o) snapshot
  have refreshed : Triple (discipline o) i (Registered snapshot) (Async.await (refresh snapshot)) fun _ _ => True :=
    .await (discipline_sound o) (refresh_conduct snapshot) fun _ => .top
  refine .seq (Q := fun _ => Registered snapshot) (.look fun _ _ has => has) fun admission => ?_
  cases admission with
  | none => exact refreshed
  | some admission =>
    have restoring : Calm (do
        let _ ← require (·.resolve admission.token)
        if o.restoreToolBinding then orThrow (← ask (.restoreToolBinding snapshot.binding admission.token))
        else Async.await (pure ()) : M o Unit) :=
      .bind (.check _) fun _ => .ite (.bind (calm_ask fun _ _ => trivial) fun _ => .lift _) (calm_await (.pure _))
    refine .seq (.settled (restoring.triple untaken) lasting fun _ has => has) fun r => ?_
    cases r with
    | ok _ => exact refreshed
    | error e => exact .ite (fun _ => refreshed) fun _ => .lift fun _ _ _ => trivial

/-- A listed task is admitted at its listed revision once nothing earlier is open. -/
theorem recoverTask_conduct (intent : TaskIntent) :
    Triple (discipline o) i (Reached intent.id intent.revision) (recoverTask intent) fun _ _ => True := by
  refine .seq (Q := onOk fun _ => Reached intent.id intent.revision) (.look fun _ _ reached => reached)
    fun admitted => .ite (fun _ => .pure fun _ _ _ => trivial) fun _ => ?_
  refine .seq (Q := onOk fun (unresolved : Bool) c => ¬unresolved → PriorClosed intent.id intent.revision c)
    (.look fun c orderly reached settled => unresolvedPriorWork_closed orderly reached settled) fun unresolved =>
    .ite (fun _ => (calm_held _ _ _).triple untaken) fun settled => ?_
  refine .await (discipline_sound o) ((admitIntent_conduct intent).pre fun _ _ closed => closed settled) fun _ => .top

theorem calm_recover : Calm (recover : M o Unit) := by
  have tail : Calm (do
      let runs ← read fun s => s.runs o
      Async.each runs restoreRun
      let tasks ← read fun s => (s.tasks o).filter (!·.controlOnly)
      Async.each tasks recoverTask : M o Unit) := by
    intro i _
    have runsOf (runs : List RunSnapshot) :
        Lasting (discipline o) fun c : Instant o => ∀ snapshot ∈ runs, Registered snapshot c :=
      fun _ _ _ move known snapshot member => registered_lasting snapshot move (known snapshot member)
    have tasksOf (tasks : List TaskIntent) :
        Lasting (discipline o) fun c : Instant o => ∀ intent ∈ tasks, Reached intent.id intent.revision c :=
      fun _ _ _ move known intent member => reached_lasting _ _ move (known intent member)
    refine .seq (Q := onOk fun runs c => ∀ snapshot ∈ runs, Registered snapshot c)
      (.look fun c orderly _ snapshot member => registered_of_mem orderly member) fun runs => ?_
    refine .seq (.each_lasting (runsOf runs) fun snapshot member =>
      (restoreRun_conduct snapshot).pre fun _ _ known => known snapshot member) fun _ => ?_
    refine .seq (Q := onOk fun (tasks : List TaskIntent) c => ∀ intent ∈ tasks, Reached intent.id intent.revision c)
      (.look fun c orderly _ intent member => ?_) fun tasks => .each_lasting (tasksOf tasks) fun intent member =>
        (recoverTask_conduct intent).pre fun _ _ known => known intent member
    obtain ⟨T,stored⟩ := Table.mem_list.mp (List.mem_filter.mp member).1
    exact ⟨intent,(orderly.authority.task T intent stored).1 ▸ stored,Nat.le_refl _⟩
  refine .bind (calm_ask fun _ _ => trivial) fun _ => .bind (.lift _) fun _ => .ite (.lift _) ?_
  refine .bind calm_loseReservations fun _ => .bind (calm_act trivial fun _ _ => trivial) fun _ =>
    .bind (.settle calm_replayObservations) fun _ => .bind (calm_act trivial fun _ _ => trivial) fun _ =>
    .bind (.lift _) fun _ => .bind (calm_await calm_recoverEffects) fun _ =>
    .bind (calm_stopOpenChildren _) fun _ => tail

theorem calm_start : Calm (start : M o Unit) := by
  refine .bind (.look _) fun recovery => ?_
  cases recovery with
  | some fiber => exact .join (discipline_sound o) fiber
  | none =>
    exact .bind (.fork (discipline_sound o) calm_recover) fun fiber =>
      .bind (calm_act trivial fun _ _ => trivial) fun _ => .join (discipline_sound o) fiber

theorem calm_ingest (obs : Observation) : Calm (ingest obs : M o IngestResult) :=
  .bind (calm_await calm_start) fun _ => .ite (.pure _) <| .bind (.look _) fun _ => .ite (.pure _) <|
    .bind (calm_act trivial fun _ _ => trivial) fun _ =>
    .bind (calm_await (calm_processObservation _ _)) fun _ =>
    .bind (calm_act trivial fun _ _ => trivial) fun _ => .pure _

end Neurobro.Agent
