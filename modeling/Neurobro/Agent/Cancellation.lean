import Neurobro.Agent.OperationsConduct

/-! Cancelled tasks: what each command does to control records, and what a cancellation
keeps in force until the owner corrects the task. -/
namespace Neurobro.Agent

open Coop

/-- All that commands do to control records. -/
inductive Controls.Step (o : Options) (s : State) : (cmd : Cmd) → cmd.Result → Table TaskId Control → Prop where
  | keep {cmd : Cmd} {result : cmd.Result} : Step o s cmd result s.store.controls
  | cancel {T : TaskId} : Step o s (.cancelTask T) (.ok ()) (s.store.controls.put T (s.cancelControl T))
  | hold {T : TaskId} {reason : String} {resume : Bool} (open' : ¬s.cancelledIn T) :
      Step o s (.holdTask T reason resume) (.ok ()) (s.store.controls.put T (s.holdControl T reason resume))
  | correct {request : CorrectionRequest} {intent : TaskIntent} :
      Step o s (.correctTask request) (.ok ⟨intent,true⟩)
        (s.store.controls.put request.taskId (s.correctionBarrier request.taskId))
  | release {T : TaskId} : Step o s (.releaseControl T) () (s.store.controls.delete T)
  | resume {T : TaskId} : Step o s (.resumeTask T) (.ok ()) (s.store.controls.delete T)

section commands

variable {o : Options} {s : State}

theorem transact_controls {α : Type} {r : Except Err (α × State)}
    {Rel : Except Err α → Table TaskId Control → Prop}
    (keep : ∀ e, Rel (.error e) s.store.controls)
    (h : ∀ a s', r = .ok (a,s') → Rel (.ok a) s'.store.controls) :
    Rel (transact s r).1 (transact s r).2.store.controls := by
  rcases transact_cases s r with ⟨a,s',same,done⟩ | ⟨e,failed⟩
  · rw [done]
    exact h a s' same
  · rw [failed]
    exact keep e

theorem exec_controls (valid : s.authority.Valid o) (cmd : Cmd) :
    Controls.Step o s cmd (exec o cmd s).1 (exec o cmd s).2.store.controls := by
  cases governs : cmd.governs with
  | false =>
    obtain ⟨n,same⟩ := exec_ungoverned o s governs
    rw [show (exec o cmd s).2.store.controls = _ from congrArg Authority.controls same]
    exact .keep
  | true =>
    cases cmd with
    | refreshGrant intent grant baseline prepared =>
      refine transact_controls (fun _ => .keep) fun _ s' h => ?_
      obtain ⟨_,_,_,_,rfl | ⟨_,rfl,_⟩⟩ := State.refreshGrant_ok h <;> exact .keep
    | narrowGrant T peerId =>
      refine transact_controls (fun _ => .keep) fun _ s' h => ?_
      obtain ⟨_,_,_,rfl⟩ := State.narrowGrant_ok h
      exact .keep
    | cancelTask T =>
      refine transact_controls (fun _ => .keep) fun _ s' h => ?_
      obtain ⟨_,_,_,same⟩ := State.cancelTask_ok h
      rw [show s'.store.controls = _ from congrArg Authority.controls same]
      exact .cancel
    | holdTask T reason resume =>
      refine transact_controls (fun _ => .keep) fun _ s' h => ?_
      obtain ⟨_,_,⟨_,rfl⟩ | ⟨_,_,open',same⟩⟩ := State.holdTask_ok h
      · exact .keep
      · rw [show s'.store.controls = _ from congrArg Authority.controls same]
        exact .hold open'
    | correctTask request =>
      refine transact_controls (fun _ => .keep) fun corrected s' h => ?_
      obtain ⟨_,_,⟨_,same⟩ | ⟨_,_,_,_,rfl,_,_,_,same⟩⟩ := State.correctTask_ok h
      · rw [show s'.store.controls = _ from congrArg Authority.controls same]
        exact .keep
      · rw [show s'.store.controls = _ from congrArg Authority.controls same]
        exact .correct
    | resumeTask T =>
      refine transact_controls (fun _ => .keep) fun _ s' h => ?_
      obtain ⟨intent,_,task,_,same⟩ := State.resumeTask_ok h
      obtain rfl : intent.id = T := (valid.task T intent task).1
      rw [show s'.store.controls = _ from congrArg Authority.controls same]
      exact .resume
    | createTask obs command route =>
      rcases State.createTask_authority (o := o) (s := s) obs command route with ⟨_,same⟩ | ⟨_,_,_,_,_,same⟩
      all_goals
        rw [show (exec o (.createTask obs command route) s).2.store.controls = _ from
          congrArg Authority.controls same]
        exact .keep
    | openControl id source target =>
      rcases State.openControl_authority (o := o) (s := s) id source target with
        ⟨_,_,_,same⟩ | ⟨_,_,_,_,_,_,_,_,same⟩
      · rw [show (exec o (.openControl id source target) s).2 = s from same]
        exact .keep
      · rw [show (exec o (.openControl id source target) s).2.store.controls = _ from
          congrArg Authority.controls same]
        exact .keep
    | releaseControl T => exact .release
    | _ => cases governs

end commands

/-! ## Cancellations in force -/

variable {o : Options}

def cancels (T : TaskId) : Event (agent o) → Bool
  | .act _ (Cmd.cancelTask T') result => T' = T && match result with
      | .ok _ => true
      | .error _ => false
  | _ => false

/-- A correction by the owner, not a change that had been applied before. -/
def ownerCorrects (T : TaskId) : Event (agent o) → Bool
  | .act _ (Cmd.correctTask request) result => request.taskId = T && !request.contextRefresh && match result with
      | .ok corrected => corrected.applied
      | .error _ => false
  | _ => false

/-- A cancellation has committed, and no correction by the owner since. -/
def cancelPending (T : TaskId) : List (Event (agent o)) → Bool
  | [] => false
  | e :: earlier => cancels T e || (!ownerCorrects T e && cancelPending T earlier)

/-- A cancelled task is neither released, resumed nor refreshed. -/
def RespectsCancellation : Cmd → Instant o → Prop
  | .releaseControl T,c => ¬c.state.cancelledIn T
  | .resumeTask T,c => ¬c.state.cancelledIn T
  | .correctTask request,c => request.contextRefresh → ¬c.state.cancelledIn request.taskId
  | _,_ => True

section kept

variable {c c' : Instant o} {T : TaskId}

theorem cancelTask_cancelled {s s' : State} (h : s.cancelTask o T = .ok ((),s')) : s'.cancelledIn T := by
  obtain ⟨_,_,_,same⟩ := State.cancelTask_ok h
  have controls : s'.store.controls = s.store.controls.put T (s.cancelControl T) :=
    congrArg Authority.controls same
  exact State.cancelledIn_iff.mpr ⟨_,by rw [controls]; exact Table.get_put_same _ _ _,rfl⟩

theorem act_cancels {i : Nat} (cancelled : cancels (o := o) T (.act i cmd (exec o cmd c.state).1)) :
    (c.act i cmd).state.cancelledIn T := by
  unfold cancels at cancelled
  split at cancelled
  · rename_i T' result same
    cases same
    obtain ⟨named,held⟩ := Bool.and_eq_true_iff.mp cancelled
    obtain rfl := of_decide_eq_true named
    split at held
    · rename_i done
      exact cancelTask_cancelled (transact_ok done)
    · contradiction
  · contradiction

/-- Nothing but the owner's correction ends a cancellation that is respected. -/
theorem act_cancelled (valid : c.state.authority.Valid o)
    (respects : RespectsCancellation cmd c) (cancelled : c.state.cancelledIn T)
    (uncorrected : ¬ownerCorrects (o := o) T (.act i cmd (exec o cmd c.state).1)) :
    (c.act i cmd).state.cancelledIn T := by
  obtain ⟨k,found,marked⟩ := State.cancelledIn_iff.mp cancelled
  have step := exec_controls valid cmd
  generalize done : (exec o cmd c.state).1 = result at step uncorrected
  generalize after : (exec o cmd c.state).2.store.controls = controls at step
  refine State.cancelledIn_iff.mpr ?_
  show ∃ k, (exec o cmd c.state).2.store.controls.get T = some k ∧ _
  rw [after]
  cases step with
  | keep => exact ⟨k,found,marked⟩
  | @cancel T' =>
    by_cases same : T = T'
    · exact ⟨_,by rw [same]; exact Table.get_put_same _ _ _,rfl⟩
    · exact ⟨k,by rw [Table.get_put_other _ _ same]; exact found,marked⟩
  | @hold T' _ _ open' =>
    have other : T ≠ T' := by rintro rfl; exact open' cancelled
    exact ⟨k,by rw [Table.get_put_other _ _ other]; exact found,marked⟩
  | @correct request intent =>
    have other : T ≠ request.taskId := by
      rintro rfl
      cases refresh : request.contextRefresh with
      | true => exact respects refresh cancelled
      | false => exact uncorrected (by simp [ownerCorrects,refresh])
    exact ⟨k,by rw [Table.get_put_other _ _ other]; exact found,marked⟩
  | @release T' =>
    have other : T ≠ T' := by rintro rfl; exact respects cancelled
    exact ⟨k,by rw [Table.get_delete,if_neg other]; exact found,marked⟩
  | @resume T' =>
    have other : T ≠ T' := by rintro rfl; exact respects cancelled
    exact ⟨k,by rw [Table.get_delete,if_neg other]; exact found,marked⟩

theorem change_cancelled (change : Change (discipline o) RespectsCancellation c c')
    (kept : cancelPending T c.trace → c.state.cancelledIn T) : cancelPending T c'.trace → c'.state.cancelledIn T := by
  intro pending
  cases change with
  | act i cmd orderly _ respects =>
    rcases Bool.or_eq_true_iff.mp pending with now | before
    · exact act_cancels now
    · obtain ⟨uncorrected,before⟩ := Bool.and_eq_true_iff.mp before
      exact act_cancelled orderly.authority respects (kept before) (by simpa using uncorrected)
  | call i q => exact kept (by simpa [cancelPending,cancels,ownerCorrects,Core.call] using pending)
  | reply i q r => exact kept (by simpa [cancelPending,cancels,ownerCorrects,Core.reply] using pending)
  | shock x =>
    have before := kept (by simpa [cancelPending,cancels,ownerCorrects,Core.shock] using pending)
    cases x <;> exact before
  | crash => exact kept (by simpa [cancelPending,cancels,ownerCorrects,Core.crash] using pending)

end kept

/-- In a run that respects cancellations, one that is pending is on record. -/
theorem pending_cancelled {now : Time}
    (run : World.LeadsIf (body o) RespectsCancellation (World.initial (State.boot now policy)) w)
    (pending : cancelPending T w.core.trace) : w.core.state.cancelledIn T := by
  have start : Reachable o (World.initial (State.boot now policy)) := ⟨now,policy,.refl⟩
  have kept := (start.changes run).keeps (A := fun c => cancelPending T c.trace → c.state.cancelledIn T)
    (fun _ _ change => change_cancelled change) fun no => nomatch no
  exact kept pending

/-! ## No revival -/

/-- The current grant of a cancelled task is revoked, so nothing is submitted for it. -/
theorem cancelled_not_submitted {now : Time} {policy : Policy} {w : World (agent o)}
    (run : World.LeadsIf (body o) RespectsCancellation (World.initial (State.boot now policy)) w) {T : TaskId}
    (pending : cancelPending T w.core.trace) (i : Nat) (input : EngineInput) :
    w.calling = some (i,.submit input) → input.taskId ≠ T := by
  rintro calling rfl
  have reachable : Reachable o w := ⟨now,policy,run.leads⟩
  obtain ⟨_,_,_,intent,grant,current,unrevoked⟩ := reachable.governed.calling calling
  obtain ⟨k,found,marked⟩ := State.cancelledIn_iff.mp (pending_cancelled run pending)
  have revoked := reachable.orderly.authority.cancelled _ k intent grant found marked current
  simp [unrevoked] at revoked

/-- Two corrections are saved and wait for their runs to end; a poll resumes one, and the
other task is cancelled while the first is being submitted. -/
def revived : List (Choice (agent .plain) Op) :=
  [.invoke (.ingest (spoken "7" "a" "/бро x")),.resume 1 capable,.resume 0 (answered .running),
    .invoke (.ingest (spoken "7" "b" "/бро y")),.resume 2 (answered .running),
    .invoke (.correct (.uuid 0) "z" none),.resume 3 (answered .running),
    .invoke (.correct (.uuid 3) "z" none),.resume 4 (answered .running),
    .invoke .poll,.resume 7 (answered .cancelled),.resume 9 (answered .cancelled),
    .invoke (.cancel (.uuid 0)),.resume 5 (answered .running)]

def submittingFor (T : TaskId) (w : World (agent .plain)) : Bool :=
  match w.calling with
  | some (_,.submit input) => input.taskId = T
  | _ => false

theorem submittingFor_calling (held : submittingFor T w) :
    ∃ i input, w.calling = some (i,.submit input) ∧ input.taskId = T := by
  unfold submittingFor at held
  split at held
  · rename_i i input calling
    exact ⟨i,input,calling,of_decide_eq_true held⟩
  · cases held

/-- Then the poll goes on to its listed control of the cancelled task and submits it. -/
theorem cancelled_submitted : ¬∀ (o : Options) (w : World (agent o)) (T : TaskId), Reachable o w →
    cancelPending T w.core.trace → ∀ i input, w.calling = some (i,.submit input) → input.taskId ≠ T := by
  intro never
  have played : (play revived boot 29).any fun w =>
      cancelPending (.uuid 0) w.core.trace && submittingFor (.uuid 0) w := by decide +kernel
  obtain ⟨w,reached,held⟩ := play_any played
  obtain ⟨pending,submits⟩ := Bool.and_eq_true_iff.mp held
  obtain ⟨i,input,calling,named⟩ := submittingFor_calling submits
  exact never .plain w (.uuid 0) (boot_reachable.leads reached) pending i input calling named

/-- A command that cannot take a cancellation away. -/
def harmless : Event (agent o) → Bool
  | .act _ (Cmd.releaseControl _) _ | .act _ (Cmd.resumeTask _) _ | .act _ (Cmd.correctTask _) _ => false
  | _ => true

theorem harmless_respects (i : Nat) (cmd : Cmd) (r : cmd.Result) (c : Instant o)
    (held : harmless (o := o) (.act i cmd r)) : RespectsCancellation cmd c := by
  cases cmd <;> trivial

/-- One task is stopped; another is given and on the point of being submitted. -/
def stopped : List (Choice (agent .plain) Op) :=
  [.invoke (.ingest (spoken "7" "a" "/бро x")),.resume 1 capable,.resume 0 (answered .running),
    .invoke (.cancel (.uuid 0)),.resume 2 (answered .cancelled),.invoke (.ingest (spoken "7" "b" "/бро y"))]

/-- What is being submitted is the other one. -/
theorem cancelled_not_submitted_other : ∃ (w : World (agent .plain)) (i : Nat) (input : EngineInput),
    cancelPending (.uuid 0) w.core.trace ∧ w.calling = some (i,.submit input) ∧ input.taskId ≠ .uuid 0 := by
  have played : (play stopped boot 35).any fun w => cancelPending (.uuid 0) w.core.trace &&
      (submittingFor (.uuid 3) w && w.core.trace.all harmless) := by decide +kernel
  obtain ⟨w,reached,held⟩ := play_any played
  obtain ⟨pending,held⟩ := Bool.and_eq_true_iff.mp held
  obtain ⟨submits,clear⟩ := Bool.and_eq_true_iff.mp held
  obtain ⟨i,input,calling,_⟩ := submittingFor_calling submits
  exact ⟨w,i,input,pending,calling,
    cancelled_not_submitted (reached.harmless harmless_respects clear) pending i input calling⟩

/-! ## Nothing is lost -/

/-- A pending cancellation is on record, and the task is shown neither paused nor accepted. -/
theorem cancellation_kept {now : Time} {policy : Policy} {w : World (agent o)}
    (run : World.LeadsIf (body o) RespectsCancellation (World.initial (State.boot now policy)) w) {T : TaskId}
    (pending : cancelPending T w.core.trace) : w.core.state.cancelledIn T ∧
      ∀ status, w.core.state.statusFor o T = some status → status.state ≠ .paused ∧ status.state ≠ .accepted := by
  have cancelled := pending_cancelled run pending
  refine ⟨cancelled,fun status shown => ?_⟩
  obtain ⟨intent,found,rfl⟩ := Option.map_eq_some_iff.mp shown
  obtain ⟨task,_⟩ := Option.filter_eq_some_iff.mp found
  obtain ⟨k,held,marked⟩ := State.cancelledIn_iff.mp cancelled
  have reachable : Reachable o w := ⟨now,policy,run.leads⟩
  obtain rfl : intent.id = T := (reachable.orderly.authority.task T intent task).1
  simp only [State.statusOf,State.statusState,held,Option.any_some,marked,true_or,if_true]
  split <;> simp

/-- A correction of the task has committed and waits for the engine to end the old run. -/
def correcting (T : TaskId) (w : World (agent o)) : Bool :=
  w.parked.any fun p => match p.2 with
    | .call (Call.cancel binding) _ => binding.taskId = T && w.core.trace.any fun
        | .act i (Cmd.correctTask request) _ => i = p.1 && request.taskId = T
        | _ => false
    | _ => false

/-- The owner corrects a running task, and cancels it while the engine ends the run. -/
def interrupted : List (Choice (agent .plain) Op) :=
  [.invoke (.ingest (spoken "7" "a" "/бро x")),.resume 1 capable,.resume 0 (answered .running),
    .invoke (.correct (.uuid 0) "z" none),.invoke (.cancel (.uuid 0))]

/-- Then the correction goes on and takes the cancelled control away. -/
theorem cancellation_lost : ¬∀ (o : Options) (w w' : World (agent o)) (T : TaskId), Reachable o w →
    correcting T w → cancelPending T w.core.trace → World.Leads (body o) w w' →
      cancelPending T w'.core.trace → w'.core.state.cancelledIn T := by
  intro kept
  have played : (play interrupted boot).any fun w =>
      (correcting (.uuid 0) w && cancelPending (.uuid 0) w.core.trace) &&
      (play [.resume 2 (answered .cancelled)] w).any fun w' =>
        cancelPending (.uuid 0) w'.core.trace && !w'.core.state.cancelledIn (.uuid 0) := by decide +kernel
  obtain ⟨w,reached,held⟩ := play_any played
  obtain ⟨before,played⟩ := Bool.and_eq_true_iff.mp held
  obtain ⟨awaiting,pending⟩ := Bool.and_eq_true_iff.mp before
  obtain ⟨w',run,after⟩ := play_any played
  obtain ⟨pending',gone⟩ := Bool.and_eq_true_iff.mp after
  have still := kept .plain w w' (.uuid 0) (boot_reachable.leads reached) awaiting pending run pending'
  rw [still] at gone
  cases gone

/-- The stopped task stays cancelled. -/
theorem cancellation_kept_stopped : ∃ w : World (agent .plain), cancelPending (.uuid 0) w.core.trace ∧
    w.core.state.cancelledIn (.uuid 0) := by
  have played : (play stopped boot).any fun w =>
      cancelPending (.uuid 0) w.core.trace && w.core.trace.all harmless := by decide +kernel
  obtain ⟨w,reached,held⟩ := play_any played
  obtain ⟨pending,clear⟩ := Bool.and_eq_true_iff.mp held
  exact ⟨w,pending,(cancellation_kept (reached.harmless harmless_respects clear) pending).1⟩

/-! ## Context refreshes -/

/-- Cancelled, or held for good. -/
def Control.Stopped (k : Control) : Prop :=
  k.cancelledAt.isSome ∨ (k.heldAt.isSome ∧ k.resumeWhenSettled = false)

instance (k : Control) : Decidable k.Stopped := inferInstanceAs (Decidable (_ ∨ _))

/-- A context refresh that commits always sets a stopped task going again: its control
record becomes a resumable one and its new grant is not revoked. -/
theorem refresh_revives {w : World (agent o)} (reachable : Reachable o w) {i : Nat} {request : CorrectionRequest}
    (about : w.about = some (i,.correctTask request)) (_refresh : request.contextRefresh) {k : Control}
    (stopped : k.Stopped) (_found : w.core.state.store.controls.get request.taskId = some k)
    {corrected : Corrected} {s' : State} (committed : w.core.state.correctTask o request = .ok (corrected,s')) :
    s'.store.controls.get request.taskId ≠ some k ∧
      (∃ k', s'.store.controls.get request.taskId = some k' ∧ ¬k'.Stopped) ∧
      ∃ intent grant, s'.authority.Current request.taskId intent grant ∧ grant.revokedAt = none := by
  have unapplied : w.core.state.changeApplied request = false := (reachable.governed.about about).2
  obtain ⟨actual,_,⟨applied,_⟩ | ⟨grant,granted,_,_,_,_,unrevoked,_,same⟩⟩ := State.correctTask_ok committed
  · rw [unapplied] at applied
    cases applied
  · have controls : s'.store.controls = _ := congrArg Authority.controls same
    have barrier : s'.store.controls.get request.taskId = some (w.core.state.correctionBarrier request.taskId) := by
      rw [controls]
      exact Table.get_put_same _ _ _
    have open' : ¬(w.core.state.correctionBarrier request.taskId).Stopped := by
      simp [Control.Stopped,State.correctionBarrier]
    refine ⟨fun still => ?_,⟨_,barrier,open'⟩,w.core.state.nextIntent request actual,granted,⟨?_,?_⟩,unrevoked⟩
    · exact open' (Option.some.inj (barrier.symm.trans still) ▸ stopped)
    · rw [same]
      exact Table.get_put_same _ _ _
    · rw [same]
      exact Table.get_put_same _ _ _

/-- The host refreshes two running tasks one after the other, and the second is cancelled
while the first is still being refreshed. -/
def refreshed : List (Choice (agent .plain) Op) :=
  [.invoke (.ingest (spoken "7" "a" "/бро x")),.resume 1 capable,.resume 0 (answered .running),
    .invoke (.ingest (spoken "7" "b" "/бро y")),.resume 2 (answered .running),.invoke .refreshInvalidatedTasks,
    .invoke (.cancel (.uuid 0)),.resume 4 (answered .cancelled),.resume 3 (answered .cancelled),
    .resume 3 (answered .running)]

/-- The context of every task is invalid. -/
def invalidated : World (agent .plain) := World.initial (State.boot 0 { contextInvalid := fun _ _ => true })

/-- The running segment is about to refresh the context of a stopped task. -/
def refreshing (w : World (agent .plain)) : Bool :=
  match w.about with
  | some (_,.correctTask request) => request.contextRefresh &&
      (w.core.state.store.controls.get request.taskId).any (decide ·.Stopped) &&
      match w.core.state.correctTask .plain request with
      | .ok _ => true
      | .error _ => false
  | _ => false

theorem refreshing_about (held : refreshing w) : ∃ i request k corrected s',
    w.about = some (i,.correctTask request) ∧ request.contextRefresh ∧ k.Stopped ∧
      w.core.state.store.controls.get request.taskId = some k ∧
      w.core.state.correctTask .plain request = .ok (corrected,s') := by
  unfold refreshing at held
  split at held
  · rename_i i request about
    obtain ⟨head,commits⟩ := Bool.and_eq_true_iff.mp held
    obtain ⟨refresh,control⟩ := Bool.and_eq_true_iff.mp head
    obtain ⟨k,found,stopped⟩ := (Option.any_eq_true _ _).mp control
    split at commits
    · rename_i pair done
      exact ⟨i,request,k,pair.1,pair.2,about,refresh,of_decide_eq_true stopped,found,done⟩
    · cases commits
  · cases held

/-- The host goes by the list it has read, and its refresh revives the cancelled task. -/
theorem refresh_not_inert : ¬∀ (o : Options) (w : World (agent o)) (i : Nat) (request : CorrectionRequest)
    (k : Control) (corrected : Corrected) (s' : State), Reachable o w → w.about = some (i,.correctTask request) →
      request.contextRefresh → k.Stopped → w.core.state.store.controls.get request.taskId = some k →
      w.core.state.correctTask o request = .ok (corrected,s') →
        s'.store.controls.get request.taskId = some k := by
  intro inert
  have played : (play refreshed invalidated 23).any fun w => refreshing w && (match w.about with
      | some (_,.correctTask request) => match w.core.state.correctTask .plain request with
        | .ok (_,s') => (s'.store.controls.get request.taskId).all fun k => decide ¬k.Stopped
        | .error _ => false
      | _ => false) := by decide +kernel
  obtain ⟨w,reached,held⟩ := play_any played
  obtain ⟨refreshes,revives⟩ := Bool.and_eq_true_iff.mp held
  obtain ⟨i,request,k,corrected,s',about,refresh,stopped,found,committed⟩ := refreshing_about refreshes
  have still := inert .plain w i request k corrected s' ⟨0,_,reached⟩ about refresh stopped found committed
  simp only [about,committed,still,Option.all_some,decide_eq_true_eq] at revives
  exact revives stopped

theorem refresh_revives_host : ∃ (w : World (agent .plain)) (request : CorrectionRequest) (k : Control) (s' : State),
    w.core.state.cancelledIn request.taskId ∧ s'.store.controls.get request.taskId ≠ some k := by
  have played : (play refreshed invalidated 23).any fun w => refreshing w && (match w.about with
      | some (_,.correctTask request) => w.core.state.cancelledIn request.taskId
      | _ => false) := by decide +kernel
  obtain ⟨w,reached,held⟩ := play_any played
  obtain ⟨refreshes,cancelled⟩ := Bool.and_eq_true_iff.mp held
  obtain ⟨i,request,k,corrected,s',about,refresh,stopped,found,committed⟩ := refreshing_about refreshes
  simp only [about] at cancelled
  exact ⟨w,request,k,s',cancelled,
    (refresh_revives (o := .plain) ⟨0,_,reached⟩ about refresh stopped found committed).1⟩

end Neurobro.Agent
