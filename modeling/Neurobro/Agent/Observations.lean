import Neurobro.Agent.OperationsConduct
import Neurobro.Agent.Origin

/-! Observations are applied once: a message makes one task at most, and one event raises
one revision at most, however often it is delivered and wherever the process crashes. -/
namespace Neurobro.Agent

open Coop

variable {o : Options} {s : State}

/-- The message makes a task. -/
def creates (source : String) : Event (agent o) → Bool
  | .act _ (Cmd.createTask obs _ _) result => refKey obs.ref = source && result.2
  | _ => false

/-- The change raises the revision of a task. -/
def raises (change : EventKey) : Event (agent o) → Bool
  | .act _ (Cmd.correctTask request) result => request.changeId = some change && match result with
      | .ok corrected => corrected.applied
      | .error _ => false
  | _ => false

/-! ## Sources -/

/-- A message that has a task keeps having one. -/
theorem exec_sources (cmd : Cmd) (found : (s.store.sources.get source).isSome) :
    ((exec o cmd s).2.store.sources.get source).isSome := by
  have step := exec_origin o s cmd
  generalize origin : (exec o cmd s).2.origin = after at step
  rw [show (exec o cmd s).2.store.sources = after.sources from congrArg Origin.sources origin]
  have put (key : String) (T : TaskId) : ((s.store.sources.put key T).get source).isSome := by
    rw [Table.get_put]
    split
    · rfl
    · exact found
  cases step with
  | keep | output | review => exact found
  | create => exact put _ _
  | correct _ corrects =>
    rcases corrects.sources with same | ⟨key,same⟩
    · rw [same]; exact found
    · rw [same]; exact put _ _

/-- A task is made of a message that has none, and then it has one. -/
theorem createTask_created {route : Route}
    (created : (s.createTask o obs command route).1.2 = true) : s.store.sources.get (refKey obs.ref) = none ∧
      ((s.createTask o obs command route).2.store.sources.get (refKey obs.ref)).isSome := by
  have new : s.store.sources.get (refKey obs.ref) = none := by
    unfold State.createTask at created
    split at created
    · cases created
    · rename_i unbound
      simpa using unbound
  refine ⟨new,?_⟩
  rcases State.createTask_origin (o := o) (s := s) obs command route with same | ⟨_,_,_,same⟩
  · unfold State.createTask at same ⊢
    simp only [new,Option.isSome_none,Bool.false_eq_true,if_false] at same ⊢
    unfold State.openOrigin State.installTask
    simp only
    split <;> simp [State.putGrantFor,State.makeGrant]
  · rw [show (s.createTask o obs command route).2.store.sources = _ from congrArg Origin.sources same]
    exact Option.isSome_of_eq_some (Table.get_put_same _ _ _)

/-! ## Changes -/

def State.changes (s : State) : Table EventKey TaskId := s.store.appliedChanges

namespace State

variable {s' : State} {T : TaskId}

@[simp] theorem journalChildStop_changes (T : TaskId) (reason : String) (revision : Nat) :
    (s.journalChildStop o T reason revision).changes = s.changes := by
  unfold journalChildStop
  split <;> rfl

@[simp] theorem grantBaseline_changes (intent : TaskIntent) (grant : Grant) :
    (s.grantBaseline o intent grant).2.changes = s.changes := by
  unfold grantBaseline
  split <;> rfl

@[simp] theorem correctedGrant_changes (request : CorrectionRequest) (actual next : TaskIntent)
    (retired : Grant) : (s.correctedGrant o request actual next retired).2.changes = s.changes := by
  unfold correctedGrant
  split
  · exact grantBaseline_changes (s := (s.makeGrant o next).2) actual retired
  · rfl

@[simp] theorem installCorrection_changes (request : CorrectionRequest) (actual next : TaskIntent)
    (granted : Grant) : (s.installCorrection o request actual next granted).changes = s.changes := by
  unfold installCorrection journalChildStop
  split <;> rfl

theorem renewOrigin_changes {request : CorrectionRequest} (h : s.renewOrigin o request = .ok s') :
    s'.changes = s.changes := by
  rcases renewOrigin_ok h with ⟨rfl,_⟩ | ⟨_,_,_,_,_,rfl⟩ <;> rfl

/-- A correction that goes through notes its change, which had not been noted before. -/
theorem correctTask_changes {request : CorrectionRequest} {corrected : Corrected}
    (h : s.correctTask o request = .ok (corrected,s')) :
    (corrected.applied = false ∧ s'.changes = s.changes) ∨
      (s.changeApplied request = false ∧ s'.changes = (s.noteChange request).changes) := by
  obtain ⟨actual,_,h⟩ := bind_ok h
  obtain ⟨linked,link,h⟩ := bind_ok h
  have same : linked.store.appliedChanges = s.store.appliedChanges := (linkFollowUp_ok link).2.2.2
  split at h
  · cases h
    exact .inl ⟨rfl,same⟩
  · rename_i new
    obtain ⟨grant,_,h⟩ := bind_ok h
    obtain ⟨renewed,renew,h⟩ := bind_ok h
    cases h
    have noted : (linked.noteChange request).changes = (s.noteChange request).changes := by
      unfold noteChange changes
      split <;> simp [same]
    refine .inr ⟨by simpa [changeApplied,same] using new,?_⟩
    rw [installCorrection_changes,correctedGrant_changes,renewOrigin_changes renew]
    exact noted

theorem resumeTask_changes (h : s.resumeTask o T = .ok ((),s')) : s'.changes = s.changes := by
  obtain ⟨intent,_,h⟩ := bind_ok h
  obtain ⟨⟨granted,made⟩,resumed,h⟩ := bind_ok h
  cases h
  have same : made.changes = s.changes := by
    unfold resumedGrant at resumed
    split at resumed
    · obtain ⟨prior,_,inherited⟩ := map_ok resumed
      cases inherited
      exact grantBaseline_changes intent prior
    · cases resumed; rfl
  exact same

theorem cancelTask_changes (h : s.cancelTask o T = .ok ((),s')) : s'.changes = s.changes := by
  obtain ⟨intent,_,h⟩ := bind_ok h
  obtain ⟨grant,_,h⟩ := bind_ok h
  cases h
  rw [journalChildStop_changes]
  rfl

theorem holdTask_changes {reason : String} {resume : Bool} (h : s.holdTask o T reason resume = .ok ((),s')) :
    s'.changes = s.changes := by
  obtain ⟨intent,_,h⟩ := bind_ok h
  split at h
  · cases h; rfl
  · obtain ⟨grant,_,h⟩ := bind_ok h
    cases h
    rw [journalChildStop_changes]
    rfl

theorem createTask_changes (obs : Observation) (command : String) (route : Route) :
    (s.createTask o obs command route).2.changes = s.changes := by
  unfold createTask
  split
  · rfl
  · unfold openOrigin
    simp only
    split <;> rfl

theorem openControl_changes (id : TaskId) (source : MessageRef) (target : Option TaskId) :
    (s.openControl o id source target).2.changes = s.changes := by
  unfold openControl
  split <;> rfl

theorem captureOwnReceipt_changes (effect : Effect) : (s.captureOwnReceipt o effect).changes = s.changes := by
  unfold captureOwnReceipt
  split
  · split
    · rfl
    · simp only
      split <;> rfl
  · rfl

end State

theorem transact_changes {α : Type} {r : Except Err (α × State)}
    (h : ∀ a s', r = .ok (a,s') → s'.changes = s.changes) : (transact s r).2.changes = s.changes := by
  rcases transact_cases s r with ⟨a,s',same,done⟩ | ⟨e,failed⟩
  · rw [done]
    exact h a s' same
  · rw [failed]

/-- Only corrections note changes. -/
theorem exec_changes (cmd : Cmd) (other : ∀ request, cmd ≠ .correctTask request) :
    (exec o cmd s).2.changes = s.changes := by
  cases cmd with
  | issue context =>
    refine transact_changes fun token s' h => ?_
    obtain ⟨_,_,rfl⟩ := State.issue_ok h
    rfl
  | bindToken token binding =>
    refine transact_changes fun _ s' h => ?_
    obtain ⟨_,_,rfl⟩ := State.bindToken_ok h
    rfl
  | revokeToken token =>
    show (s.revokeToken token).changes = _
    unfold State.revokeToken
    split
    · rfl
    · split <;> rfl
  | claim token context request id payloadHash =>
    refine transact_changes fun _ s' h => ?_
    obtain ⟨_,_,_,rfl⟩ := State.claim_ok h
    rfl
  | settle effect result =>
    refine transact_changes fun _ s' h => ?_
    obtain ⟨_,_,_,rfl⟩ | ⟨_,_,rfl⟩ := State.settle_ok h <;> rfl
  | captureReceipt effect => exact State.captureOwnReceipt_changes effect
  | cancelPrepared id =>
    show (s.cancelPrepared id).changes = _
    unfold State.cancelPrepared
    split
    · rfl
    · split <;> rfl
  | baseline intent grant => exact State.grantBaseline_changes intent grant
  | refreshGrant intent grant baseline prepared =>
    refine transact_changes fun _ s' h => ?_
    obtain ⟨_,_,_,_,rfl | ⟨_,rfl,_⟩⟩ := State.refreshGrant_ok h <;> rfl
  | narrowGrant T peerId =>
    refine transact_changes fun _ s' h => ?_
    obtain ⟨_,_,_,rfl⟩ := State.narrowGrant_ok h
    rfl
  | cancelTask T => exact transact_changes fun _ _ h => State.cancelTask_changes h
  | holdTask T reason resume => exact transact_changes fun _ _ h => State.holdTask_changes h
  | correctTask request => exact absurd rfl (other request)
  | resumeTask T => exact transact_changes fun _ _ h => State.resumeTask_changes h
  | createTask obs command route => exact State.createTask_changes obs command route
  | openControl id source target => exact State.openControl_changes id source target
  | reserve admission =>
    show (s.reserve admission).2.changes = _
    unfold State.reserve
    split <;> rfl
  | loseReservation key =>
    show (s.loseReservation key).changes = _
    unfold State.loseReservation
    split
    · rfl
    · split <;> rfl
  | receive key obs =>
    show (s.receive key obs).changes = _
    unfold State.receive
    split <;> rfl
  | _ => rfl

theorem noteChange_get (request : CorrectionRequest) (change : EventKey) : (s.noteChange request).changes.get change =
    if request.changeId = some change then some request.taskId else s.changes.get change := by
  unfold State.noteChange State.changes
  split
  · rename_i noted given
    rw [given]
    by_cases same : change = noted
    · simp [same]
    · rw [Table.get_put_other _ _ same,if_neg fun other => same (Option.some.inj other).symm]
  · rename_i none
    rw [none,if_neg (by simp)]

/-- A change that has been noted stays noted. -/
theorem exec_noted (cmd : Cmd) {change : EventKey} (noted : (s.changes.get change).isSome) :
    ((exec o cmd s).2.changes.get change).isSome := by
  by_cases corrects : ∃ request, cmd = .correctTask request
  · obtain ⟨request,rfl⟩ := corrects
    show ((transact s (s.correctTask o request)).2.changes.get change).isSome
    rcases transact_cases s (s.correctTask o request) with ⟨corrected,s',h,done⟩ | ⟨e,failed⟩
    · rw [done]
      rcases State.correctTask_changes h with ⟨_,same⟩ | ⟨_,same⟩
      · rw [same]; exact noted
      · rw [same,noteChange_get]
        split
        · rfl
        · exact noted
    · rw [failed]; exact noted
  · rw [exec_changes cmd fun request same => corrects ⟨request,same⟩]
    exact noted

/-! ## What makes a task and what raises a revision -/

/-- Revisions are raised by corrections that apply their change, one at a time. -/
theorem raised_by_correction (valid : s.authority.Valid o)
    (before : s.store.tasks.get T = some intent) (after : (exec o cmd s).2.store.tasks.get T = some intent')
    (raised : intent'.revision ≠ intent.revision) : ∃ request corrected s', cmd = .correctTask request ∧
      request.taskId = T ∧ s.correctTask o request = .ok (corrected,s') ∧ corrected.applied ∧
        intent'.revision = intent.revision + 1 := by
  have kept (tasks : (exec o cmd s).2.store.tasks = s.store.tasks) : False := by
    rw [tasks,before] at after
    exact raised (congrArg _ (Option.some.inj after).symm)
  have transacted {α : Type} {r : Except Err (α × State)} (run : (exec o cmd s).2 = (transact s r).2)
      (h : ∀ a s', r = .ok (a,s') → s'.store.tasks = s.store.tasks) : False := by
    refine kept ?_
    rw [run]
    rcases transact_cases s r with ⟨a,s',same,done⟩ | ⟨e,failed⟩
    · rw [done]; exact h a s' same
    · rw [failed]
  cases governs : cmd.governs with
  | false =>
    obtain ⟨n,same⟩ := exec_ungoverned o s governs
    exact (kept (congrArg Authority.tasks same)).elim
  | true =>
    cases cmd with
    | refreshGrant i g b p =>
      refine (transacted (r := s.refreshGrant o i g b p) rfl fun _ s' h => ?_).elim
      obtain ⟨_,_,_,_,rfl | ⟨_,rfl,_⟩⟩ := State.refreshGrant_ok h <;> rfl
    | narrowGrant T' peerId =>
      refine (transacted (r := s.narrowGrant T' peerId) rfl fun _ s' h => ?_).elim
      obtain ⟨_,_,_,rfl⟩ := State.narrowGrant_ok h
      rfl
    | cancelTask T' =>
      refine (transacted (r := s.cancelTask o T') rfl fun _ s' h => ?_).elim
      obtain ⟨_,_,_,same⟩ := State.cancelTask_ok h
      exact congrArg Authority.tasks same
    | holdTask T' reason resume =>
      refine (transacted (r := s.holdTask o T' reason resume) rfl fun _ s' h => ?_).elim
      obtain ⟨_,_,⟨_,rfl⟩ | ⟨_,_,_,same⟩⟩ := State.holdTask_ok h
      · rfl
      · exact congrArg Authority.tasks same
    | releaseControl T' => exact (kept rfl).elim
    | resumeTask T' =>
      rcases transact_cases s (s.resumeTask o T') with ⟨_,s',h,done⟩ | ⟨e,failed⟩
      · obtain ⟨actual,_,task,_,same⟩ := State.resumeTask_ok h
        have tasks : (exec o (.resumeTask T') s).2.store.tasks = _ :=
          (congrArg (fun p => p.2.store.tasks) done).trans (congrArg Authority.tasks same)
        obtain rfl : actual.id = T' := (valid.task _ actual task).1
        rw [tasks,Table.get_put] at after
        split at after
        · rename_i same
          subst same
          cases Option.some.inj (before.symm.trans task)
          exact absurd (congrArg TaskIntent.revision (Option.some.inj after)).symm raised
        · rw [before] at after
          exact absurd (congrArg TaskIntent.revision (Option.some.inj after)).symm raised
      · exact (kept (congrArg (fun p => p.2.store.tasks) failed)).elim
    | createTask obs command route =>
      rcases State.createTask_authority (o := o) (s := s) obs command route with
        ⟨_,same⟩ | ⟨_,_,_,_,_,same⟩
      · exact (kept (congrArg Authority.tasks same)).elim
      · have tasks : (exec o (.createTask obs command route) s).2.store.tasks = _ := congrArg Authority.tasks same
        have other : T ≠ .uuid s.fresh := by
          rintro rfl
          exact Nat.lt_irrefl _ (valid.named _ intent before)
        rw [tasks,Table.get_put_other _ _ other] at after
        exact absurd (congrArg TaskIntent.revision (Option.some.inj (before.symm.trans after))).symm raised
    | openControl id source target =>
      rcases State.openControl_authority (o := o) (s := s) id source target with
        ⟨_,_,_,same⟩ | ⟨_,_,new,_,_,_,_,_,same⟩
      · exact (kept (congrArg (·.store.tasks) same)).elim
      · have tasks : (exec o (.openControl id source target) s).2.store.tasks = _ := congrArg Authority.tasks same
        have other : T ≠ id := by rintro rfl; simp [new] at before
        rw [tasks,Table.get_put_other _ _ other] at after
        exact absurd (congrArg TaskIntent.revision (Option.some.inj (before.symm.trans after))).symm raised
    | correctTask request =>
      rcases transact_cases s (s.correctTask o request) with ⟨corrected,s',h,done⟩ | ⟨e,failed⟩
      · obtain ⟨actual,task,⟨_,same⟩ | ⟨_,_,_,_,rfl,_,_,_,same⟩⟩ := State.correctTask_ok h
        · exact (kept ((congrArg (fun p => p.2.store.tasks) done).trans (congrArg Authority.tasks same))).elim
        · have tasks : (exec o (.correctTask request) s).2.store.tasks = _ :=
            (congrArg (fun p => p.2.store.tasks) done).trans (congrArg Authority.tasks same)
          rw [tasks,Table.get_put] at after
          split at after
          · rename_i same
            subst same
            cases Option.some.inj (before.symm.trans task)
            exact ⟨request,_,s',rfl,rfl,h,rfl,(congrArg TaskIntent.revision (Option.some.inj after)).symm⟩
          · exact absurd (congrArg TaskIntent.revision (Option.some.inj (before.symm.trans after))).symm raised
      · exact (kept (congrArg (fun p => p.2.store.tasks) failed)).elim
    | _ => cases governs

/-! ## Once -/

/-- What has made a task or raised a revision is on record. -/
structure Applied (c : Instant o) : Prop where
  source : ∀ key, c.Happened (creates key ·) → (c.state.store.sources.get key).isSome
  change : ∀ key, c.Happened (raises key ·) → (c.state.changes.get key).isSome
  createdOnce : ∀ key, c.AtMostOnce (creates key)
  raisedOnce : ∀ key, c.AtMostOnce (raises key)

section steps

variable {c c' : Instant o} {e : Event (agent o)}

theorem creates_act {key : String}
    (created : creates (o := o) key (.act i cmd (exec o cmd c.state).1)) :
    c.state.store.sources.get key = none ∧ ((exec o cmd c.state).2.store.sources.get key).isSome := by
  cases cmd with
  | createTask obs command route =>
    obtain ⟨named,made⟩ := Bool.and_eq_true_iff.mp created
    obtain rfl := of_decide_eq_true named
    exact createTask_created made
  | _ => cases created

theorem raises_act {key : EventKey}
    (raised : raises (o := o) key (.act i cmd (exec o cmd c.state).1)) :
    c.state.changes.get key = none ∧ ((exec o cmd c.state).2.changes.get key).isSome := by
  cases cmd with
  | correctTask request =>
    obtain ⟨named,held⟩ := Bool.and_eq_true_iff.mp raised
    have named := of_decide_eq_true named
    split at held
    · rename_i corrected done
      have h := transact_ok done
      rcases State.correctTask_changes h with ⟨no,_⟩ | ⟨new,same⟩
      · rw [no] at held; cases held
      · refine ⟨by simpa [State.changeApplied,State.changes,named] using new,?_⟩
        show ((transact c.state (c.state.correctTask o request)).2.changes.get key).isSome
        rw [same,noteChange_get,if_pos named]
        rfl
    · cases held
  | _ => cases raised

theorem Applied.records (applied : Applied c) (records : c.Records c' e)
    (sources : ∀ key, (c.state.store.sources.get key).isSome → (c'.state.store.sources.get key).isSome)
    (changes : ∀ key, (c.state.changes.get key).isSome → (c'.state.changes.get key).isSome)
    (creating : ∀ key, creates key e → c.state.store.sources.get key = none ∧
      (c'.state.store.sources.get key).isSome)
    (raising : ∀ key, raises key e → c.state.changes.get key = none ∧ (c'.state.changes.get key).isSome) :
    Applied c' where
  source key happened := by
    rcases (Core.happened_records records).mp happened with new | before
    · exact (creating key new).2
    · exact sources key (applied.source key before)
  change key happened := by
    rcases (Core.happened_records records).mp happened with new | before
    · exact (raising key new).2
    · exact changes key (applied.change key before)
  createdOnce key := (applied.createdOnce key).records records fun new before => by
    have bound := applied.source key before
    rw [(creating key new).1] at bound
    cases bound
  raisedOnce key := (applied.raisedOnce key).records records fun new before => by
    have noted := applied.change key before
    rw [(raising key new).1] at noted
    cases noted

theorem change_applied (change : Change (discipline o) ok c c') (applied : Applied c) : Applied c':= by
  cases change with
  | act i cmd =>
    exact applied.records (c.records_act i cmd) (fun _ => exec_sources cmd) (fun _ => exec_noted cmd)
      (fun _ => creates_act) fun _ => raises_act
  | call i q =>
    exact applied.records (c.records_call i q) (fun _ => id) (fun _ => id) (fun _ no => nomatch no)
      fun _ no => nomatch no
  | reply i q r =>
    exact applied.records (c.records_reply i q r) (fun _ => id) (fun _ => id) (fun _ no => nomatch no)
      fun _ no => nomatch no
  | shock x =>
    exact applied.records (c.records_shock x) (by cases x <;> exact fun _ => id) (by cases x <;> exact fun _ => id)
      (fun _ no => nomatch no) fun _ no => nomatch no
  | crash =>
    exact applied.records c.records_crash (fun _ => id) (fun _ => id) (fun _ no => nomatch no)
      fun _ no => nomatch no

end steps

/-- In every run, a message makes at most one task and an event raises at most one revision. -/
theorem observed_once {w : World (agent o)} (reachable : Reachable o w) :
    (∀ source, w.core.AtMostOnce (creates source)) ∧ ∀ change, w.core.AtMostOnce (raises change) := by
  obtain ⟨now,policy,run⟩ := reachable
  have start : Reachable o (World.initial (State.boot now policy)) := ⟨now,policy,.refl⟩
  have empty : Applied (World.initial (S := agent o) (State.boot now policy)).core := by
    constructor <;> simp [World.initial,Core.Happened,Core.AtMostOnce]
  have applied := (start.changes run.always).keeps (fun _ _ => change_applied) empty
  exact ⟨applied.createdOnce,applied.raisedOnce⟩

/-- Two deliveries of one message, with a crash between them. -/
def redelivered : List (Choice (agent .plain) Op) :=
  [.invoke (.ingest (spoken "7" "a" "/бро x")),.resume 1 capable,.crash,
    .invoke (.ingest (spoken "7" "a" "/бро x")),.resume 3 capable]

theorem observed_once_redelivered : ∃ w : World (agent .plain),
    .crash ∈ w.core.trace ∧ w.core.Happened (creates (refKey (spoken "7" "a" "/бро x").ref) ·) ∧
      w.core.AtMostOnce (creates (refKey (spoken "7" "a" "/бро x").ref)) := by
  have played : (play redelivered boot).any fun w =>
      w.core.trace.any (creates (refKey (spoken "7" "a" "/бро x").ref)) && w.core.trace.any fun event =>
        match event with
        | .crash => true
        | _ => false := by decide +kernel
  obtain ⟨w,reached,held⟩ := play_any played
  obtain ⟨made,crashed⟩ := Bool.and_eq_true_iff.mp held
  obtain ⟨event,member,crash⟩ := List.any_eq_true.mp crashed
  refine ⟨w,?_,List.any_eq_true.mp made,(observed_once (boot_reachable.leads reached)).1 _⟩
  cases event <;> first | exact member | simp at crash

end Neurobro.Agent
