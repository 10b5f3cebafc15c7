import Neurobro.Agent.OperationsConduct

/-! An admission that a correction has overtaken: what it may still do to the grant and
the control record of the newer revision. -/
namespace Neurobro.Agent

open Coop

variable {o : Options}

/-! ## Rows on record -/

/-- Intentions and grants are stored under their own names, and every intention has its grant. -/
structure Authority.Kept (a : Authority) : Prop where
  named : ∀ T intent, a.tasks.get T = some intent → intent.id = T
  keyed : ∀ g grant, a.grants.get g = some grant → grant.id = g
  granted : ∀ T intent, a.tasks.get T = some intent → (a.grants.get intent.grantId).isSome

namespace Authority.Kept

variable {a : Authority}

theorem put_isSome {K V : Type} [DecidableEq K] {t : Table K V} {k k' : K} {v : V} (h : (t.get k).isSome) :
    ((t.put k' v).get k).isSome := by
  rw [Table.get_put]
  split
  · rfl
  · exact h

/-- A grant is replaced or added. -/
theorem grant (kept : a.Kept) {g : GrantId} {next : Grant} (id : next.id = g) :
    Kept { a with grants := a.grants.put g next } := by
  refine ⟨kept.named,fun g' grant found => ?_,fun T intent found => put_isSome (kept.granted T intent found)⟩
  simp only [Table.get_put] at found
  split at found
  · cases Option.some.inj found; exact id.trans (Eq.symm ‹_›)
  · exact kept.keyed g' grant found

/-- An intention is stored together with its grant. -/
theorem task (kept : a.Kept) {T : TaskId} {intent : TaskIntent} {granted : Grant} (named : intent.id = T)
    (id : granted.id = intent.grantId) :
    Kept { a with
      tasks := a.tasks.put T intent
      grants := a.grants.put intent.grantId granted } := by
  refine ⟨fun T' intent' found => ?_,(kept.grant id).keyed,fun T' intent' found => ?_⟩ <;>
    simp only [Table.get_put] at found
  · split at found
    · cases Option.some.inj found; exact named.trans (Eq.symm ‹_›)
    · exact kept.named T' intent' found
  · split at found
    · cases Option.some.inj found; exact Option.isSome_of_eq_some (Table.get_put_same _ _ _)
    · exact put_isSome (kept.granted T' intent' found)

theorem congr {a' : Authority} (kept : a.Kept) (tasks : a'.tasks = a.tasks) (grants : a'.grants = a.grants) :
    a'.Kept := ⟨tasks ▸ kept.named,grants ▸ kept.keyed,by rw [tasks,grants]; exact kept.granted⟩

end Authority.Kept

section commands

variable {s : State}

theorem transact_kept {α : Type} {r : Except Err (α × State)} (kept : s.authority.Kept)
    (h : ∀ a s', r = .ok (a,s') → s'.authority.Kept) : (transact s r).2.authority.Kept := by
  rcases transact_cases s r with ⟨a,s',same,done⟩ | ⟨e,failed⟩
  · rw [done]
    exact h a s' same
  · rw [failed]
    exact kept

theorem exec_kept (kept : s.authority.Kept) (cmd : Cmd) : (exec o cmd s).2.authority.Kept := by
  cases governs : cmd.governs with
  | false =>
    obtain ⟨n,same⟩ := exec_ungoverned o s governs
    rw [same]
    exact kept.congr rfl rfl
  | true =>
    cases cmd with
    | refreshGrant intent grant baseline prepared =>
      refine transact_kept kept fun _ s' h => ?_
      obtain ⟨_,_,_,_,rfl | ⟨_,rfl,amends⟩⟩ := State.refreshGrant_ok h
      · exact kept
      · exact kept.grant amends.id
    | narrowGrant T peerId =>
      refine transact_kept kept fun _ s' h => ?_
      obtain ⟨_,_,_,rfl⟩ := State.narrowGrant_ok h
      exact kept.grant rfl
    | cancelTask T =>
      refine transact_kept kept fun _ s' h => ?_
      obtain ⟨_,grant,_,same⟩ := State.cancelTask_ok h
      rw [same]
      exact (kept.grant (show (s.revokedGrant grant).id = _ from rfl)).congr rfl rfl
    | holdTask T reason resume =>
      refine transact_kept kept fun _ s' h => ?_
      obtain ⟨_,_,⟨_,rfl⟩ | ⟨grant,_,_,same⟩⟩ := State.holdTask_ok h
      · exact kept
      · rw [same]
        exact (kept.grant (show (s.revokedGrant grant).id = _ from rfl)).congr rfl rfl
    | correctTask request =>
      refine transact_kept kept fun _ s' h => ?_
      obtain ⟨actual,task,⟨_,same⟩ | ⟨grant,granted,_,_,_,id,_,_,same⟩⟩ := State.correctTask_ok h
      · rw [same]; exact kept
      · rw [same]
        have named : actual.id = request.taskId := kept.named request.taskId actual task
        exact ((kept.grant (show (s.retiredGrant grant).id = _ from rfl)).task
          (show (s.nextIntent request actual).id = _ from named) id).congr rfl rfl
    | releaseControl T => exact kept.congr rfl rfl
    | resumeTask T =>
      refine transact_kept kept fun _ s' h => ?_
      obtain ⟨intent,granted,_,id,same⟩ := State.resumeTask_ok h
      rw [same]
      exact (kept.task (show ({ intent with grantId := s.fresh } : TaskIntent).id = _ from rfl) id).congr rfl rfl
    | createTask obs command route =>
      rcases State.createTask_authority (o := o) (s := s) obs command route with
        ⟨_,same⟩ | ⟨granted,_,_,id,_,same⟩
      · rw [show (exec o (.createTask obs command route) s).2.authority = _ from same]
        exact kept.congr rfl rfl
      · rw [show (exec o (.createTask obs command route) s).2.authority = _ from same]
        exact (kept.task (show (s.newIntent o obs command route).id = _ from rfl) id).congr rfl (by rw [id]; rfl)
    | openControl id source target =>
      rcases State.openControl_authority (o := o) (s := s) id source target with
        ⟨_,_,_,same⟩ | ⟨intent,granted,_,named,_,_,grantId,id',same⟩
      · rw [show (exec o (.openControl id source target) s).2 = s from same]
        exact kept
      · rw [show (exec o (.openControl id source target) s).2.authority = _ from same]
        exact (kept.task named (id'.trans grantId.symm)).congr rfl (by rw [id',grantId]; rfl)
    | _ => cases governs

end commands

/-! ## What an admission may still do -/

/-- The task has gone beyond the revision. -/
def Overtaken (T : TaskId) (revision : Nat) (c : Instant o) : Prop :=
  ∃ actual, c.state.store.tasks.get T = some actual ∧ revision < actual.revision

/-- The command leaves the present grant and the control record of the task. -/
structure Untouched (T : TaskId) (cmd : Cmd) (c : Instant o) : Prop where
  task : (exec o cmd c.state).2.store.tasks.get T = c.state.store.tasks.get T
  grant : ∀ actual, c.state.store.tasks.get T = some actual →
    (exec o cmd c.state).2.store.grants.get actual.grantId = c.state.store.grants.get actual.grantId
  control : (exec o cmd c.state).2.store.controls.get T = c.state.store.controls.get T

theorem untouched_of_ungoverned {c : Instant o} (other : cmd.governs = false) : Untouched T cmd c:= by
  obtain ⟨n,same⟩ := exec_ungoverned o c.state other
  have tasks : (exec o cmd c.state).2.store.tasks = c.state.store.tasks := congrArg Authority.tasks same
  have grants : (exec o cmd c.state).2.store.grants = c.state.store.grants := congrArg Authority.grants same
  have controls : (exec o cmd c.state).2.store.controls = c.state.store.controls :=
    congrArg Authority.controls same
  exact ⟨by rw [tasks],fun _ _ => by rw [grants],by rw [controls]⟩

/-- The rules for one admission, run by the fiber `t`: once overtaken, it touches nothing
of the newer revision, except by holding the task. -/
def staleAdmission (o : Options) (t : Nat) (intent : TaskIntent) : Rules (agent o) where
  inv c := c.state.authority.Kept
  mayAct i cmd c := i = t → Overtaken intent.id intent.revision c →
    Untouched intent.id cmd c ∨ ∃ reason resume, cmd = .holdTask intent.id reason resume
  mayCall _ _ _ := True
  taken i := i = t

section admission

variable {t : Nat} {intent : TaskIntent}

theorem staleAdmission_sound : (staleAdmission o t intent).Sound where
  move := by
    intro who c c' move
    cases move with
    | act kept _ => exact exec_kept kept _
    | call kept _ => exact kept
    | reply _ _ kept => exact kept
    | shock x kept => cases x <;> exact kept
  crash kept := kept

/-- The fiber keeps the rules through the computation, wherever it starts. -/
abbrev Mild (t : Nat) (intent : TaskIntent) {α : Type} (m : M o α) : Prop :=
  Triple (staleAdmission o t intent) t (fun _ => True) m fun _ _ => True

namespace Mild

variable {α β : Type}

theorem bind {m : M o α} {f : α → M o β} (first : Mild t intent m) (next : ∀ a, Mild t intent (f a)) :
    Mild t intent (m >>= f) := Triple.seq first next

theorem pure (a : α) : Mild t intent (Pure.pure a : M o α) := Triple.pure fun _ _ _ => trivial

theorem read (f : State → α) : Mild t intent (Agent.read f : M o α) := Triple.look fun _ _ _ => trivial

theorem require (f : State → Except Err α) : Mild t intent (Agent.require f : M o α) :=
  Triple.check fun _ _ _ => trivial

theorem throws (r : Except Err α) : Mild t intent (orThrow r : M o α) := Triple.lift fun _ _ _ => trivial

theorem settle {m : M o α} (h : Mild t intent m) : Mild t intent (Async.settle m) := Triple.settle h

theorem await {m : M o α} (h : Mild t intent m) : Mild t intent (Async.await m) :=
  Triple.await staleAdmission_sound h fun _ => .top

theorem ask (q : Call) : Mild t intent (Agent.ask q : M o q.Reply) :=
  Triple.call staleAdmission_sound .top (fun _ _ _ => trivial) (fun _ _ _ => trivial) fun _ _ _ _ => trivial

theorem commit (other : cmd.governs = false) : Mild t intent (Agent.commit cmd : M o cmd.Result) :=
  Triple.act staleAdmission_sound (fun _ _ _ _ _ => .inl (untouched_of_ungoverned other)) fun _ _ _ _ => trivial

theorem ite {p : Prop} [Decidable p] {m m' : M o α} (yes : Mild t intent m) (no : Mild t intent m') :
    Mild t intent (if p then m else m') := Triple.ite (fun _ => yes) fun _ => no

end Mild

theorem mild_stopChildren (T : TaskId) (reason : String) (revision : Nat) :
    Mild t intent (stopChildren T reason revision : M o Bool) := by
  refine .bind (.read _) fun _ => .ite (.pure _) <| .bind (.commit rfl) fun _ => .bind (.ask _) fun r => ?_
  cases r with
  | ok result => exact .bind (.commit rfl) fun _ => .pure _
  | error e => exact .bind (.commit rfl) fun _ => .pure _

theorem mild_hold (reason : String) (resume : Bool) : Mild t intent (hold intent.id reason resume : M o Unit) := by
  refine .bind (.require _) fun _ => .bind ?_ fun _ => .bind (.throws _) fun _ =>
    .bind (.await (mild_stopChildren _ _ _)) fun _ => .pure _
  exact .act staleAdmission_sound (fun _ _ _ _ _ => .inr ⟨reason,resume,rfl⟩) fun _ _ _ _ => trivial

/-- The refresh of a grant is refused once the task has gone on. -/
theorem refreshGrant_untouched {before : TaskIntent} {grant : Grant}
    {prepared : Option PreparedAuthority} {c : Instant o} (id : before.id = intent.id)
    (revision : before.revision = intent.revision) (overtaken : Overtaken intent.id intent.revision c) :
    Untouched intent.id (.refreshGrant before grant baseline prepared) c := by
  obtain ⟨actual,task,newer⟩ := overtaken
  rcases transact_cases c.state (c.state.refreshGrant o before grant baseline prepared) with
    ⟨_,s',done,_⟩ | ⟨e,failed⟩
  · obtain ⟨actual',_,⟨task',_⟩,same,_⟩ := State.refreshGrant_ok done
    have task' : c.state.store.tasks.get before.id = some actual' := task'
    rw [id,task] at task'
    cases Option.some.inj task'
    omega
  · have unchanged : (exec o (.refreshGrant before grant baseline prepared) c.state).2 = c.state :=
      congrArg Prod.snd failed
    exact ⟨by rw [unchanged],fun _ _ => by rw [unchanged],by rw [unchanged]⟩

/-- Begun at the revision of the admission, authority is prepared for that revision only. -/
theorem prepareTaskAuthority_mild : Triple (staleAdmission o t intent) t
    (fun c => AtRevision intent.id intent.revision c) (prepareTaskAuthority intent.id) fun _ _ => True := by
  refine .seq (Q := onOk fun (read : TaskIntent × Grant) _ =>
    read.1.id = intent.id ∧ read.1.revision = intent.revision) (.check fun c kept at' => ?_) fun ⟨before,grant⟩ => ?_
  · obtain ⟨actual,task,revision⟩ := at'
    cases known : (do
        let intent ← c.state.requireTask intent.id
        let grant ← c.state.requireGrant intent.grantId
        if grant.revokedAt.isSome then .error (.authority "Revoked authority cannot be refreshed")
        else .ok (intent,grant) : Except Err (TaskIntent × Grant)) with
    | error e => trivial
    | ok read =>
      obtain ⟨before,found,rest⟩ := bind_ok known
      obtain ⟨grant,_,rest⟩ := bind_ok rest
      have found := State.requireTask_ok found
      split at rest
      · contradiction
      · cases rest
        cases Option.some.inj (task.symm.trans found)
        exact ⟨kept.named _ _ task,revision⟩
  · refine (Triple.assume (P := fun _ => True) fun ⟨id,revision⟩ => ?_).pre fun _ _ known => ⟨known,trivial⟩
    have refreshed (baseline : Time) (prepared : Option PreparedAuthority) (f : State → Except Err ToolContext) :
        Mild t intent (do
          orThrow (← commit (.refreshGrant before grant baseline prepared))
          require f : M o ToolContext) := by
      refine .bind ?_ fun _ => .bind (.throws _) fun _ => .require _
      exact .act staleAdmission_sound
        (fun _ _ _ _ overtaken => .inl (refreshGrant_untouched id revision overtaken)) fun _ _ _ _ => trivial
    exact Mild.bind (.commit rfl) fun _ => .ite
      (.bind (.ask _) fun _ => .bind (.throws _) fun _ => .bind (.pure _) fun _ => refreshed _ _ _)
      (.bind (.await (.pure _)) fun _ => refreshed _ _ _)

theorem mild_acceptSnapshot (snapshot : RunSnapshot) (T : TaskId) (revision : Nat) (key : String) :
    Mild t intent (acceptSnapshot snapshot T revision key : M o Unit) :=
  .bind (.throws _) fun _ => .commit rfl

theorem mild_cancelRun (binding : RunBinding) (T : TaskId) (revision : Nat) (key : String) :
    Mild t intent (cancelRun binding T revision key : M o RunSnapshot) :=
  .bind (.ask _) fun _ => .bind (.throws _) fun _ => .ite (.throws _) <|
    .bind (mild_acceptSnapshot _ _ _ _) fun _ => .pure _

theorem mild_prepareSubmission (before : TaskIntent) (token : Token) :
    Mild t intent (prepareSubmission before token : M o PreparedInput) := by
  have checked (prepared : PreparedInput) : Mild t intent (do
      let _ ← require (·.resolve token)
      pure prepared : M o PreparedInput) := .bind (.require _) fun _ => .pure _
  exact .ite (.bind (.ask _) fun _ => .bind (.throws _) fun _ => checked _)
    (.bind (.await (.pure _)) fun _ => checked _)

theorem mild_bindSubmission (before : TaskIntent) (admission : Admission) (snapshot : RunSnapshot) :
    Mild t intent (bindSubmission before admission snapshot : M o Unit) := by
  refine .bind (mild_acceptSnapshot _ _ _ _) fun _ => .bind (.commit rfl) fun _ => .bind (.commit rfl) fun r => ?_
  cases r with
  | ok _ => exact .pure _
  | error e => exact .ite (.throws _) (.bind (.settle (mild_cancelRun _ _ _ _)) fun _ => .pure _)

theorem mild_submitReserved (admission : Admission) :
    Mild t intent (submitReserved intent admission : M o Unit) := by
  refine .bind (.settle (mild_prepareSubmission _ _)) fun r => ?_
  cases r with
  | error e => exact .bind (.commit rfl) fun _ => .await (mild_hold _ _)
  | ok prepared =>
    refine .bind (.read _) fun _ => .bind (.settle (.bind (.ask _) fun _ => .bind (.throws _) fun _ =>
      mild_bindSubmission _ _ _)) fun r => ?_
    cases r with
    | ok _ => exact .pure _
    | error e => exact .commit rfl

theorem mild_admitPrepared : Mild t intent (admitPrepared intent : M o Unit) :=
  .bind (.require _) fun _ => .bind (.read _) fun _ => .ite (.await (mild_hold _ _)) <|
    .bind (.commit rfl) fun _ => .bind (.throws _) fun _ => .bind (.read _) fun _ => .bind (.commit rfl) fun _ =>
    .ite (mild_submitReserved _) (.pure _)

theorem mild_admitIntent : Mild t intent (admitIntent intent : M o Unit) := by
  refine .seq (Q := onOk fun (actual : TaskIntent) (c : Instant o) =>
    c.state.store.tasks.get intent.id = some actual) (.check fun c _ _ => ?_) fun actual => ?_
  · cases found : c.state.requireTask intent.id with
    | error e => trivial
    | ok actual => exact State.requireTask_ok found
  refine .ite (fun _ => .pure fun _ _ _ => trivial) fun same => ?_
  refine .seq (Q := onOk fun _ (c : Instant o) => c.state.store.tasks.get intent.id = some actual)
    (.look fun _ _ found => found) fun _ => ?_
  refine .ite (fun _ => (Mild.await (mild_hold _ _)).pre fun _ _ _ => trivial) fun _ => ?_
  -- The preparation begins in the segment that has compared the revisions.
  refine .seq (Q := fun _ _ => True) (.settle (.await staleAdmission_sound
    (prepareTaskAuthority_mild.weaken (fun _ _ found => ⟨actual,found,not_not.mp same⟩) fun _ _ _ _ => trivial)
    fun _ => .top)) fun authority => ?_
  refine Mild.bind (.require _) fun _ => .ite (.pure _) ?_
  cases authority with
  | error e => exact .await (mild_hold _ _)
  | ok _ => exact mild_admitPrepared

end admission

/-! ## Overtaken admissions -/

/-- A world in which one admission has begun beside whatever else is going on. -/
theorem admitting_governed (reachable : Reachable o w) (idle : w.stack = [])
    (intent : TaskIntent) : (w.begin (admitIntent intent .done)).Governed (staleAdmission o w.next intent) := by
  have valid := reachable.orderly.authority
  have kept : w.core.state.authority.Kept :=
    ⟨fun T intent found => (valid.task T intent found).1,fun g grant found => (valid.grant g grant found).1,
      fun T intent found => by
        obtain ⟨_,granted⟩ := valid.granted T intent found
        exact Option.isSome_of_eq_some granted⟩
  refine reachable.governed.solo idle (fun _ => Iff.rfl) (fun j cmd c free mine => (free mine).elim)
    (fun _ _ _ _ => trivial) kept ?_
  exact mild_admitIntent.safe kept trivial

/-- A hold of a task that is not cancelled always touches its grant. -/
theorem hold_untouched {reason : String} {resume : Bool} {c : Instant o}
    (kept : c.state.authority.Kept) (task : c.state.store.tasks.get T = some actual) :
    Untouched T (.holdTask T reason resume) c ↔ c.state.cancelledIn T := by
  obtain ⟨grant,granted⟩ := Option.isSome_iff_exists.mp (kept.granted T actual task)
  have granted : c.state.store.grants.get actual.grantId = some grant := granted
  have found : c.state.requireTask T = .ok actual := by simp [State.requireTask,task]
  have holding : c.state.requireGrant actual.grantId = .ok grant := by simp [State.requireGrant,granted]
  have keyed : grant.id = actual.grantId := kept.keyed _ _ granted
  have run : (exec o (.holdTask T reason resume) c.state).2 =
      (transact c.state (c.state.holdTask o T reason resume)).2 := rfl
  by_cases cancelled : c.state.cancelledIn T
  · have unchanged : (exec o (.holdTask T reason resume) c.state).2 = c.state := by
      simp [run,State.holdTask,found,bind,Except.bind,cancelled,transact]
    exact iff_of_true ⟨by rw [unchanged],fun _ _ => by rw [unchanged],by rw [unchanged]⟩ cancelled
  · refine iff_of_false (fun untouched => ?_) cancelled
    have same := untouched.grant actual task
    have revoked : (exec o (.holdTask T reason resume) c.state).2.store.grants =
        c.state.store.grants.put grant.id (c.state.revokedGrant grant) := by
      rw [run]
      rcases transact_cases c.state (c.state.holdTask o T reason resume) with ⟨_,s',done,ran⟩ | ⟨e,failed⟩
      · obtain ⟨_,_,⟨held,_⟩ | ⟨grant',⟨task',granted'⟩,_,same⟩⟩ := State.holdTask_ok done
        · exact absurd held cancelled
        · cases Option.some.inj (task.symm.trans task')
          cases Option.some.inj (granted.symm.trans granted')
          rw [ran]
          exact congrArg Authority.grants same
      · simp [State.holdTask,found,holding,bind,Except.bind,cancelled,transact] at failed
    rw [revoked,← keyed,Table.get_put_same,keyed,granted] at same
    have grown := congrArg Grant.revision (Option.some.inj same)
    simp [State.revokedGrant] at grown

/-- Whatever an overtaken admission commits leaves the newer revision alone, unless it
holds the task while nobody has cancelled it. -/
theorem overtaken_untouched {w w' : World (agent o)} (reachable : Reachable o w) (idle : w.stack = [])
    {intent : TaskIntent} (run : World.Leads (body o) (w.begin (admitIntent intent .done)) w') {cmd : Cmd}
    (about : w'.about = some (w.next,cmd)) (overtaken : Overtaken intent.id intent.revision w'.core) :
    Untouched intent.id cmd w'.core ↔
      ∀ reason resume, cmd = .holdTask intent.id reason resume → w'.core.state.cancelledIn intent.id := by
  have solo : ∀ j, ¬(staleAdmission o w.next intent).taken j → j ≠ w.next := fun j free => free
  have governed := (admitting_governed reachable idle intent).leads staleAdmission_sound
    (fun op j c free _ => Safe.unruled (fun j cmd c free mine => absurd mine (solo j free))
      (fun _ _ _ _ => trivial) _ j c free) run
  obtain ⟨actual,task,newer⟩ := overtaken
  constructor
  · rintro untouched reason resume rfl
    exact (hold_untouched governed.inv task).mp untouched
  · intro spares
    rcases governed.about about rfl ⟨actual,task,newer⟩ with untouched | ⟨reason,resume,rfl⟩
    · exact untouched
    · exact (hold_untouched governed.inv task).mpr (spares reason resume rfl)

/-! ## A failed preparation -/

/-- The host prepares the input of a submission. -/
def preparing : Options := { Options.plain with prepareInput := true }

def prepared : (q : Call) → Option q.Reply
  | .prepareInput _ => some (.ok {})
  | _ => none

/-- A task is given, and the process ends before it is admitted. -/
def unadmitted : Option (World (agent preparing)) :=
  (World.play (body preparing) 400 23 [.invoke (.ingest (spoken "7" "a" "/бро x")),.resume 1 capable]
    (World.initial (State.boot 0 {}))).bind (World.step (body preparing) .crash)

/-- The task is corrected while the input of its first revision is prepared. -/
def overtaking (last : Nat) (w : World (agent preparing)) : Option (World (agent preparing)) :=
  ((w.core.state.store.tasks.get (.uuid 0)).filter (·.revision = 1)).bind fun intent =>
    World.play (body preparing) 400 last
      [.run,.invoke (.correct (.uuid 0) "y" none),.resume 4 capable,.resume 2 prepared]
      (w.begin (admitIntent intent .done))

theorem overtaking_leads
    (played : unadmitted.any fun w => w.stack.isEmpty && (w.next = 2 : Bool) &&
      (overtaking last w).any test) : ∃ (w w' : World (agent preparing)) (intent : TaskIntent),
        Reachable preparing w ∧ w.stack = [] ∧ w.next = 2 ∧ intent.id = .uuid 0 ∧ intent.revision = 1 ∧
        World.Leads (body preparing) (w.begin (admitIntent intent .done)) w' ∧ test w' := by
  obtain ⟨w,ends,held⟩ := (Option.any_eq_true _ _).mp played
  obtain ⟨first,crashed,stepped⟩ := Option.bind_eq_some_iff.mp ends
  obtain ⟨start,after⟩ := Bool.and_eq_true_iff.mp held
  obtain ⟨idle,named⟩ := Bool.and_eq_true_iff.mp start
  obtain ⟨w',played,holds⟩ := (Option.any_eq_true _ _).mp after
  obtain ⟨intent,known,played⟩ := Option.bind_eq_some_iff.mp played
  obtain ⟨task,revision⟩ := Option.filter_eq_some_iff.mp known
  have run : World.Leads (body preparing) (World.initial (State.boot 0 {})) w :=
    (World.play_leads crashed).tail ⟨.crash,stepped⟩
  have reachable : Reachable preparing w := ⟨0,{},run⟩
  exact ⟨w,w',intent,reachable,List.isEmpty_iff.mp idle,of_decide_eq_true named,
    (reachable.orderly.authority.task _ _ task).1,of_decide_eq_true revision,World.play_leads played,holds⟩

/-- The admission of the first revision is about to commit this for the task. -/
def committing (test : Cmd → Bool) (w : World (agent preparing)) : Bool :=
  (w.core.state.store.tasks.get (.uuid 0)).any (·.revision = 2) && match w.about with
    | some (i,cmd) => i = 2 && test cmd
    | none => false

/-- The command turns the saved correction into a hold that no poll resumes. -/
def stranding (w : World (agent preparing)) : Bool :=
  committing (fun cmd => (w.core.state.store.controls.get (.uuid 0)).any (·.resumeWhenSettled) &&
    !((exec preparing cmd w.core.state).2.store.controls.get (.uuid 0)).any (·.resumeWhenSettled)) w

theorem committing_about (held : committing test w)
    {intent : TaskIntent} (id : intent.id = .uuid 0) (revision : intent.revision = 1) :
    ∃ cmd, w.about = some (2,cmd) ∧ test cmd ∧ Overtaken intent.id intent.revision w.core := by
  obtain ⟨stale,held⟩ := Bool.and_eq_true_iff.mp held
  obtain ⟨actual,task,newer⟩ := (Option.any_eq_true _ _).mp stale
  have overtaken : Overtaken intent.id intent.revision w.core :=
    ⟨actual,id ▸ task,by rw [revision,of_decide_eq_true newer]; decide⟩
  split at held
  · rename_i i cmd about
    obtain ⟨mine,holds⟩ := Bool.and_eq_true_iff.mp held
    exact ⟨cmd,of_decide_eq_true mine ▸ about,holds,overtaken⟩
  · cases held

/-- The token no longer resolves, so the stale admission holds the corrected task. -/
theorem overtaken_touches : ¬∀ (o : Options) (w w' : World (agent o)) (intent : TaskIntent) (cmd : Cmd),
    Reachable o w → w.stack = [] → World.Leads (body o) (w.begin (admitIntent intent .done)) w' →
      w'.about = some (w.next,cmd) → Overtaken intent.id intent.revision w'.core →
        Untouched intent.id cmd w'.core := by
  intro untouched
  have played : unadmitted.any fun w => w.stack.isEmpty && (w.next = 2 : Bool) &&
      (overtaking 3 w).any stranding := by decide +kernel
  obtain ⟨w,w',intent,reachable,idle,named,id,revision,run,held⟩ := overtaking_leads played
  obtain ⟨cmd,about,strands,overtaken⟩ := committing_about held id revision
  obtain ⟨resumable,stranded⟩ := Bool.and_eq_true_iff.mp strands
  have kept := (untouched preparing w w' intent cmd reachable idle run (named ▸ about) overtaken).control
  rw [id] at kept
  rw [kept,resumable] at stranded
  cases stranded

/-- Giving its own admission up touches nothing of the newer revision. -/
theorem overtaken_untouched_blocked : ∃ (w' : World (agent preparing)) (intent : TaskIntent) (a : Admission),
    w'.about = some (2,.putAdmission a) ∧ a.state = .blocked ∧ intent.revision = 1 ∧
      Untouched intent.id (.putAdmission a) w'.core := by
  have played : unadmitted.any fun w => w.stack.isEmpty && (w.next = 2 : Bool) &&
      (overtaking 1 w).any (committing fun
        | .putAdmission a => a.state = .blocked
        | _ => false) := by decide +kernel
  obtain ⟨w,w',intent,reachable,idle,named,id,revision,run,held⟩ := overtaking_leads played
  obtain ⟨cmd,about,gives,overtaken⟩ := committing_about held id revision
  split at gives
  · rename_i a
    exact ⟨w',intent,a,about,of_decide_eq_true gives,revision,
      (overtaken_untouched reachable idle run (named ▸ about) overtaken).mpr fun _ _ no => nomatch no⟩
  · cases gives

end Neurobro.Agent
