import Neurobro.Agent.ControllerConduct

/-! Cancelling, correcting and resuming keep the discipline: a task is admitted again
only once everything made for its earlier revisions is known to have ended. -/
namespace Neurobro.Agent

open Coop

variable {o : Options} {i : Nat}

/-! ## Settled work -/

section settled

variable {c : Instant o} {intent : TaskIntent}

/-- Resolved admissions and ended runs close every earlier revision. -/
theorem priorClosed_of_settled (orderly : Orderly o c) {revision : Nat}
    (reached : Reached T revision c)
    (admissions : ∀ a ∈ c.state.admissions o, a.taskId = T → a.revision < revision → ¬a.state.unresolved)
    (runs : ∀ r ∈ c.state.runs o, r.binding.taskId = T → r.binding.intentRevision < revision →
      terminal r.state) : PriorClosed T revision c := by
  refine ⟨reached,fun q older admitted => ?_⟩
  obtain ⟨a,found⟩ := Option.isSome_iff_exists.mp admitted
  obtain ⟨named,_,blocked,bound⟩ := orderly.admission _ a found
  obtain ⟨task,revision'⟩ := Prod.mk.inj named
  have resolved := admissions a (Table.mem_list.mpr ⟨_,found⟩) task (revision' ▸ older)
  refine ⟨a,found,?_⟩
  cases state : a.state with
  | reserved | unknown => simp [state,AdmissionState.unresolved] at resolved
  | blocked => exact .inl ⟨rfl,blocked state⟩
  | bound =>
    obtain ⟨run,recorded⟩ := Option.isSome_iff_exists.mp (bound state)
    obtain ⟨same,_,returned⟩ := orderly.run _ run recorded
    obtain ⟨task',revision''⟩ := Prod.mk.inj same
    have ended := runs run (Table.mem_list.mpr ⟨_,recorded⟩) task' (revision'' ▸ older)
    exact .inr ⟨rfl,run,⟨run,recorded,rfl⟩,same,ended,returned ended⟩

theorem unresolvedPriorWork_closed (orderly : Orderly o c) (reached : Reached intent.id intent.revision c)
    (settled : ¬c.state.unresolvedPriorWork o intent) : PriorClosed intent.id intent.revision c := by
  simp only [State.unresolvedPriorWork,Bool.or_eq_true,List.any_eq_true,decide_eq_true_eq,not_or,
    not_exists,not_and] at settled
  refine priorClosed_of_settled orderly reached (fun a member task older => ?_) fun r member task older => ?_
  · exact settled.1.1 a member task older
  · simpa using settled.1.2 r member task older

theorem resumable_closed (orderly : Orderly o c) (reached : Reached intent.id intent.revision c)
    (settled : c.state.resumable o intent) : PriorClosed intent.id intent.revision c := by
  simp only [State.resumable,Bool.and_eq_true,Bool.not_eq_true',List.any_eq_false,decide_eq_true_eq,
    not_and] at settled
  refine priorClosed_of_settled orderly reached (fun a member task older => ?_) fun r member task _ => ?_
  · exact settled.1.1.2 a member task older
  · simpa using settled.1.2 r member task

end settled

/-- Snapshots of one task whose runs are on record. -/
def RunsOf (T : TaskId) (known : RunSnapshot → Prop) (c : Instant o) : Prop :=
  ∀ snapshot, known snapshot → snapshot.binding.taskId = T ∧ Registered snapshot c

theorem runsOf_lasting (T : TaskId) (known : RunSnapshot → Prop) :
    Lasting (discipline o) (RunsOf (o := o) T known) :=
  fun _ _ _ move runs snapshot member =>
    ⟨(runs snapshot member).1,registered_lasting snapshot move (runs snapshot member).2⟩

/-! ## Cancellation -/

theorem calm_applyCancellation (T : TaskId) : Calm (applyCancellation T : M o (Option TaskStatus)) := by
  refine .bind (.check _) fun intent => .bind (calm_act trivial fun _ _ => trivial) fun _ =>
    .bind (.lift _) fun _ => .bind (calm_await (calm_stopChildren _ _ _)) fun _ => fun i _ => ?_
  refine .seq (Q := onOk fun live => RunsOf T (· ∈ live)) (.look fun c orderly _ snapshot member => ?_)
    fun live => ?_
  · obtain ⟨listed,task,_⟩ : snapshot ∈ c.state.runs o ∧ snapshot.binding.taskId = T ∧
      ¬terminal snapshot.state := by simpa using member
    exact ⟨task,registered_of_mem orderly listed⟩
  · refine .seq (.each_lasting (runsOf_lasting T _) fun snapshot member => ?_) fun _ => .look fun _ _ _ => trivial
    refine .pre (P := fun c => snapshot.binding.taskId = T ∧ Registered snapshot c) (.assume ?_)
      fun _ _ runs => runs snapshot member
    rintro rfl
    refine .seq (.settled ?_ (registered_lasting snapshot) fun _ has => has) fun r => ?_
    · exact (cancelRun_spec _ _ _ _).post fun _ _ _ _ => trivial
    · cases r with
      | ok _ => exact .pure fun _ _ _ => trivial
      | error e => exact markUnknown_conduct snapshot _

/-! ## Correction -/

/-- Stopping the prior run needs that run on record, and may hold the task instead. -/
theorem stopPrior_conduct (T : TaskId) (current : Option RunSnapshot) :
    Triple (discipline o) i (RunsOf T (current = some ·)) (stopPrior T current) fun _ _ => True := by
  unfold stopPrior
  cases live : current.filter (!terminal ·.state) with
  | none => exact .pure fun _ _ _ => trivial
  | some snapshot =>
    have known : current = some snapshot := (Option.filter_eq_some_iff.mp live).1
    refine .pre (P := fun c => snapshot.binding.taskId = T ∧ Registered snapshot c) (.assume ?_)
      fun _ _ runs => runs snapshot known
    rintro rfl
    refine .seq (Q := fun _ _ => True) (.settle (T := fun _ _ => True) ?_) fun r => ?_
    · refine .seq (cancelRun_spec _ _ _ _) fun ended => .ite (fun _ => .pure fun _ _ _ => trivial) fun _ => ?_
      exact (Quiet.bind (calm_held _ _ _) fun _ => .pure _) |>.triple untaken
    · cases r with
      | ok _ => exact .pure fun _ _ _ => trivial
      | error _ => exact (Quiet.bind (calm_held _ _ _) fun _ => .pure _) |>.triple untaken

theorem resumeCorrection_conduct (named : intent.id = T) : Calm (resumeCorrection T intent : M o Unit):= by
  subst named
  intro i _
  have prior := priorClosed_lasting (o := o) intent.id intent.revision
  refine .seq (Q := onOk fun actual (c : Instant o) => c.state.store.tasks.get intent.id = some actual)
    (.check fun c _ _ => ?_) fun actual => ?_
  · cases stored : c.state.requireTask intent.id with
    | error e => trivial
    | ok actual => exact State.requireTask_ok stored
  refine .ite (fun _ => .pure fun _ _ _ => trivial) fun same => ?_
  refine .seq (Q := onOk fun (unresolved : Bool) c => ¬unresolved → PriorClosed intent.id intent.revision c)
    (.look fun c orderly task settled => ?_) fun unresolved => ?_
  · exact unresolvedPriorWork_closed orderly ⟨actual,task,Nat.le_of_eq (not_not.mp same).symm⟩ settled
  refine .ite (fun _ => calm_held _ _ _ |>.triple untaken) fun settled => ?_
  refine .pre (P := PriorClosed intent.id intent.revision) ?_ fun _ _ closed => closed settled
  refine .seq (Q := onOk fun _ => PriorClosed intent.id intent.revision)
    (.act (discipline_sound o) (fun _ _ _ => ⟨trivial,trivial⟩) fun c orderly closed _ => ?_) fun _ => ?_
  · exact prior (.act orderly ⟨trivial,trivial⟩) closed
  refine .seq (Q := onOk fun _ => PriorClosed intent.id intent.revision) (.look fun _ _ closed => closed)
    fun replaying => .ite (fun _ => .pure fun _ _ _ => trivial) fun _ => ?_
  exact .await (discipline_sound o) (admitIntent_conduct intent) fun _ => .top

theorem settleCorrection_conduct (request : CorrectionRequest) (before : TaskIntent)
    (current : Option RunSnapshot) (named : intent.id = request.taskId) :
    Triple (discipline o) i (RunsOf request.taskId (current = some ·))
      (settleCorrection request before current intent) fun _ _ => True := by
  have lasting := runsOf_lasting (o := o) request.taskId (current = some ·)
  refine .seq ((calm_await (calm_stopChildren _ _ _)).keeps untaken lasting) fun childrenSettled => ?_
  refine .seq (stopPrior_conduct _ current) fun proceed => .ite (fun _ => .pure fun _ _ _ => trivial) fun _ => ?_
  refine .seq (Q := fun _ _ => True) (.look fun _ _ _ => trivial) fun effects =>
    .ite (fun _ => calm_held _ _ _ |>.triple untaken) fun _ => ?_
  refine .seq (Q := fun _ _ => True) (.look fun _ _ _ => trivial) fun admission =>
    .ite (fun _ => calm_held _ _ _ |>.triple untaken) fun _ => ?_
  exact .ite (fun _ => .pure fun _ _ _ => trivial) fun _ => (resumeCorrection_conduct named).triple untaken

theorem applyCorrection_conduct {request : CorrectionRequest}
    (formed : request.contextRefresh → request.route = none) :
    Calm (applyCorrection request : M o (Option TaskStatus)) := by
  refine .ite (.lift _) (.bind (.check _) fun before i _ => ?_)
  refine .seq (Q := onOk fun applied (c : Instant o) => applied = c.state.changeApplied request)
    (.look fun _ _ _ => rfl) fun applied => .ite (fun _ => .look fun _ _ _ => trivial) fun new => ?_
  refine .seq (Q := onOk fun current (c : Instant o) => c.state.changeApplied request = false ∧
    RunsOf request.taskId (current = some ·) c) (.look fun c orderly known => ⟨?_,?_⟩) fun current => ?_
  · exact (show applied = _ from known) ▸ by simpa using new
  · intro snapshot found
    have named := (orderly.run _ snapshot found).1
    exact ⟨(Prod.mk.inj named).1,snapshot,named ▸ found,rfl⟩
  have lasting := runsOf_lasting (o := o) request.taskId (current = some ·)
  refine .seq (Q := onResult (fun r c => (∀ corrected, r = .ok corrected → corrected.intent.id = request.taskId) ∧
    RunsOf request.taskId (current = some ·) c) fun _ => False)
    (.act (discipline_sound o) (fun _ _ known => ⟨formed,known.1⟩) fun c orderly known _ => ⟨?_,?_⟩) fun r => ?_
  · intro corrected committed
    obtain ⟨actual,task,⟨applied,_⟩ | ⟨_,_,_,_,rfl,_⟩⟩ := State.correctTask_ok (transact_ok committed)
    · simp [known.1] at applied
    · exact (orderly.authority.task _ actual task).1
  · exact lasting (.act orderly ⟨formed,known.1⟩) known.2
  refine .seq (Q := onOk fun (corrected : Corrected) c => corrected.intent.id = request.taskId ∧
    RunsOf request.taskId (current = some ·) c) (.lift fun c _ known => ?_) fun corrected => ?_
  · cases r with
    | error e => trivial
    | ok corrected => exact ⟨known.1 corrected rfl,known.2⟩
  refine .assume fun named => ?_
  exact .seq (settleCorrection_conduct request before current named) fun _ => .look fun _ _ _ => trivial

/-! ## Resuming -/

theorem calm_resumeControl (control : Control) : Calm (resumeControl control : M o Unit) := by
  refine .ite (.pure _) fun i _ => ?_
  refine .seq (Q := onOk fun intent (c : Instant o) => c.state.store.tasks.get control.taskId = some intent)
    (.check fun c _ _ => ?_) fun intent => ?_
  · cases stored : c.state.requireTask control.taskId with
    | error e => trivial
    | ok intent => exact State.requireTask_ok stored
  refine .seq (Q := onOk fun (settled : Bool) (c : Instant o) => settled →
    c.state.store.tasks.get intent.id = some intent ∧ PriorClosed intent.id intent.revision c)
    (.look fun c orderly task settled => ?_) fun settled => ?_
  · have named := (orderly.authority.task _ intent task).1
    have stored : c.state.store.tasks.get intent.id = some intent := named ▸ task
    exact ⟨stored,resumable_closed orderly ⟨intent,stored,Nat.le_refl _⟩ settled⟩
  refine .ite (fun _ => .pure fun _ _ _ => trivial) fun open' => ?_
  refine .pre (P := fun (c : Instant o) => c.state.store.tasks.get intent.id = some intent ∧
    PriorClosed intent.id intent.revision c) ?_ fun _ _ known => known (by simpa using open')
  have prior := priorClosed_lasting (o := o) intent.id intent.revision
  refine .seq (Q := onResult (fun r c => (r = .ok () → AtRevision intent.id intent.revision c) ∧
    PriorClosed intent.id intent.revision c) fun _ => False)
    (.act (discipline_sound o) (fun _ _ _ => ⟨trivial,trivial⟩) fun c orderly known _ => ⟨?_,?_⟩) fun r => ?_
  · intro committed
    obtain ⟨actual,granted,task,_,same⟩ := State.resumeTask_ok (transact_ok committed)
    cases Option.some.inj (task.symm.trans known.1)
    have tasks : (c.act i (.resumeTask intent.id)).state.store.tasks = _ := congrArg Authority.tasks same
    refine ⟨{ intent with grantId := c.state.fresh },?_,rfl⟩
    rw [tasks]
    exact Table.get_put_same c.state.store.tasks _ _
  · exact prior (.act orderly ⟨trivial,trivial⟩) known.2
  refine .seq (Q := onOk fun _ c => AtRevision intent.id intent.revision c ∧
    PriorClosed intent.id intent.revision c) (.lift fun c _ known => ?_) fun _ => ?_
  · cases r with
    | error e => trivial
    | ok _ => exact ⟨known.1 rfl,known.2⟩
  refine .seq (Q := onOk fun (restored : TaskIntent) c => PriorClosed restored.id restored.revision c)
    (.check fun c orderly known => ?_) fun restored =>
      .await (discipline_sound o) (admitIntent_conduct restored) fun _ => .top
  obtain ⟨⟨restored,stored,revision⟩,closed⟩ := known
  have named := (orderly.authority.task _ restored stored).1
  have read : c.state.requireTask intent.id = .ok restored := by simp [State.requireTask,stored]
  rw [read]
  show PriorClosed restored.id restored.revision c
  rwa [named,revision]

theorem calm_resumeSettledCorrections : Calm (resumeSettledCorrections : M o Unit) :=
  .bind (.look _) fun _ => .each fun control _ => calm_resumeControl control

end Neurobro.Agent
