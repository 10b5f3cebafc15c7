import Neurobro.Agent.Soundness

/-! Assertions that outlast interference: which run a revision has, what is closed for
good, and what only the fiber that reserved an admission can change about it. -/
namespace Neurobro.Agent

open Coop

variable {o : Options} {c c' : Instant o} {who : Option Nat}

/-- A move is one guarded commit, or it leaves the store as it was. -/
theorem move_cases (move : Move (discipline o) who c c') :
    (c'.state.store = c.state.store ∧ c'.state.fresh = c.state.fresh) ∨
    ∃ i cmd, who = some i ∧ c' = c.act i cmd ∧ cmd.Wellformed ∧ Guard i cmd c := by
  cases move with
  | act _ may => exact .inr ⟨_,_,rfl,rfl,may.1,may.2⟩
  | call => exact .inl ⟨rfl,rfl⟩
  | reply => exact .inl ⟨rfl,rfl⟩
  | shock x => cases x <;> exact .inl ⟨rfl,rfl⟩

theorem Move.orderly (move : Move (discipline o) who c c') : Orderly o c := by
  cases move <;> assumption

/-! ## Runs and revisions -/

theorem hasRun_lasting (key : AdmissionKey) (runId : RunId) :
    Lasting (discipline o) (HasRun key runId) := by
  intro who c c' move has
  rcases move_cases move with ⟨store,_⟩ | ⟨i,cmd,_,rfl,_,guard⟩
  · unfold HasRun
    rw [store]
    exact has
  · obtain ⟨run,found,named⟩ := has
    rcases exec_runs o c.state cmd with same | ⟨k,snapshot,rfl,put⟩
    · exact ⟨run,by rw [← found]; exact congrArg (·.get key) same,named⟩
    · by_cases here : key = k
      · subst here
        refine ⟨snapshot,(congrArg (·.get key) put).trans (Table.get_put_same _ _ _),?_⟩
        obtain ⟨_,⟨other,stored,same⟩ | ⟨none',_⟩,_⟩ := guard
        · cases Option.some.inj (found.symm.trans stored)
          exact same.symm.trans named
        · simp [none'] at found
      · exact ⟨run,(congrArg (·.get key) put).trans ((Table.get_put_other _ _ here).trans found),named⟩

/-- The task has reached a revision. -/
def Reached (T : TaskId) (revision : Nat) (c : Instant o) : Prop :=
  ∃ intent, c.state.store.tasks.get T = some intent ∧ revision ≤ intent.revision

theorem reached_lasting (T : TaskId) (revision : Nat) : Lasting (discipline o) (Reached T revision) := by
  intro who c c' move reached
  rcases move_cases move with ⟨store,_⟩ | ⟨i,cmd,_,rfl,formed,_⟩
  · unfold Reached
    rw [store]
    exact reached
  · obtain ⟨intent,found,later⟩ := reached
    obtain ⟨intent',found',grown,_⟩ := (exec_step (Move.orderly move).authority formed).task found
    exact ⟨intent',found',later.trans grown⟩

theorem finished_lasting (key : AdmissionKey) : Lasting (discipline o) (Finished key) := by
  intro who c c' move ⟨snapshot,has,named,ended,returned⟩
  exact ⟨snapshot,hasRun_lasting key _ move has,named,ended,Core.happened_lasting move returned⟩

/-! ## Admissions -/

/-- Only an unresolved admission changes, and only its owner resolves it. -/
theorem admission_move (move : Move (discipline o) who c c') {key : AdmissionKey}
    (found : c.state.store.admissions.get key = some a) :
    ∃ a', c'.state.store.admissions.get key = some a' ∧ (a' = a ∨
      (a.state.unresolved ∧ (a'.state.unresolved ∨ ∃ i, who = some i ∧ c.Happened (reserves i key)))) := by
  rcases move_cases move with ⟨store,_⟩ | ⟨i,cmd,rfl,rfl,_,guard⟩
  · exact ⟨a,by rw [store,found],.inl rfl⟩
  · have changed : ∀ {k : AdmissionKey} {b : Admission},
        (exec o cmd c.state).2.store.admissions = c.state.store.admissions.put k b →
        (key = k → a.state.unresolved ∧
          (b.state.unresolved ∨ ∃ j, some i = some j ∧ c.Happened (reserves j key))) →
        ∃ a', (c.act i cmd).state.store.admissions.get key = some a' ∧ (a' = a ∨ (a.state.unresolved ∧
          (a'.state.unresolved ∨ ∃ j, some i = some j ∧ c.Happened (reserves j key)))) := by
      intro k b put changes
      have read : (c.act i cmd).state.store.admissions.get key = _ :=
        (congrArg (·.get key) put).trans (Table.get_put _ _ _ _)
      by_cases here : key = k
      · exact ⟨b,read.trans (if_pos here),.inr (changes here)⟩
      · exact ⟨a,(read.trans (if_neg here)).trans found,.inl rfl⟩
    rcases exec_admissions o c.state cmd with
      same | ⟨b,rfl,new,put⟩ | ⟨b,rfl,put⟩ | ⟨k,b,lost,rfl,held,reserved,unknown,_,put⟩
    · exact ⟨a,(congrArg (·.get key) same).trans found,.inl rfl⟩
    · refine changed put fun here => ?_
      subst here
      simp [new] at found
    · refine changed put fun here => ?_
      subst here
      obtain ⟨reserved,old,stored,unresolved⟩ := guard.1
      cases Option.some.inj (found.symm.trans stored)
      exact ⟨unresolved,.inr ⟨i,rfl,reserved⟩⟩
    · refine changed put fun here => ?_
      subst here
      cases Option.some.inj (found.symm.trans held)
      exact ⟨by simp [reserved,AdmissionState.unresolved],.inl (by simp [unknown,AdmissionState.unresolved])⟩

/-- Only the owner of an unresolved admission submits it. -/
theorem submit_move (move : Move (discipline o) who c c') {key : AdmissionKey}
    (submitted : c'.Happened (submits key ·)) :
    c.Happened (submits key ·) ∨ ∃ i, who = some i ∧ Holds i key c := by
  cases move with
  | act => exact .inl (submits_act.mp submitted)
  | @call _ i q _ may =>
    rcases (Core.happened_records (c.records_call i q)).mp submitted with new | before
    · cases q with
      | submit input =>
        obtain rfl : (input.taskId,input.intentRevision) = key := by simpa [submits] using new
        exact .inr ⟨i,rfl,may.1⟩
      | _ => exact absurd new (by simp [submits])
    · exact .inl before
  | reply q r =>
    exact .inl (((Core.happened_records (c.records_reply _ q r)).mp submitted).resolve_left (by simp [submits]))
  | shock x =>
    exact .inl (((Core.happened_records (c.records_shock x)).mp submitted).resolve_left (by simp [submits]))

theorem closed_lasting (key : AdmissionKey) : Lasting (discipline o) (Closed key) := by
  intro who c c' move ⟨a,found,closed⟩
  have resolved : ¬a.state.unresolved := by
    rcases closed with ⟨state,_⟩ | ⟨state,_⟩ <;> simp [state,AdmissionState.unresolved]
  obtain ⟨a',found',same | ⟨unresolved,_⟩⟩ := admission_move move found
  · refine ⟨a',found',same ▸ ?_⟩
    rcases closed with ⟨state,unsubmitted⟩ | ⟨state,finished⟩
    · refine .inl ⟨state,fun submitted => ?_⟩
      rcases submit_move move submitted with before | ⟨i,_,holds⟩
      · exact unsubmitted before
      · obtain ⟨b,stored,unresolved⟩ := holds.unresolved
        cases Option.some.inj (found.symm.trans stored)
        exact resolved unresolved
    · exact .inr ⟨state,finished_lasting key move finished⟩
  · exact (resolved unresolved).elim

/-- No earlier revision is admitted any more once a later one is reached. -/
theorem admission_old (move : Move (discipline o) who c c') {revision q : Nat}
    (reached : Reached T revision c) (older : q < revision)
    (admitted : (c'.state.store.admissions.get (T,q)).isSome) :
    (c.state.store.admissions.get (T,q)).isSome := by
  rcases move_cases move with ⟨store,_⟩ | ⟨i,cmd,_,rfl,_,guard⟩
  · rwa [store] at admitted
  · have changed : ∀ {k : AdmissionKey} {b : Admission},
        (exec o cmd c.state).2.store.admissions = c.state.store.admissions.put k b →
        ((T,q) = k → (c.state.store.admissions.get (T,q)).isSome) →
        (c.state.store.admissions.get (T,q)).isSome := by
      intro k b put there
      have read : (c.act i cmd).state.store.admissions.get (T,q) = _ :=
        (congrArg (·.get (T,q)) put).trans (Table.get_put _ _ _ _)
      by_cases here : (T,q) = k
      · exact there here
      · rw [read,if_neg here] at admitted
        exact admitted
    rcases exec_admissions o c.state cmd with
      same | ⟨b,rfl,_,put⟩ | ⟨b,rfl,put⟩ | ⟨k,b,lost,rfl,held,_,_,_,put⟩
    · have read : (c.act i cmd).state.store.admissions.get (T,q) = _ := congrArg (·.get (T,q)) same
      rwa [read] at admitted
    · refine changed put fun here => ?_
      obtain ⟨_,intent,task,revision'⟩ := guard
      obtain ⟨intent',task',later⟩ := reached
      obtain ⟨rfl,rfl⟩ := Prod.mk.inj here
      cases Option.some.inj (task.symm.trans task')
      omega
    · refine changed put fun here => ?_
      obtain ⟨a,stored,_⟩ := guard.1.unresolved
      exact Option.isSome_of_eq_some (here ▸ stored)
    · exact changed put fun here => Option.isSome_of_eq_some (here ▸ held)

theorem priorClosed_lasting (T : TaskId) (revision : Nat) :
    Lasting (discipline o) (PriorClosed T revision) := by
  intro who c c' move prior
  refine ⟨reached_lasting T revision move prior.reached,fun q older admitted => ?_⟩
  exact closed_lasting _ move (prior.closed q older (admission_old move prior.reached older admitted))

/-! ## What only the owner changes -/

theorem holds_stable (i : Nat) (key : AdmissionKey) : Stable (discipline o) i (Holds i key) := by
  intro who c c' other move holds
  obtain ⟨a,found,unresolved⟩ := holds.unresolved
  refine ⟨Core.happened_lasting move holds.reserved,?_⟩
  obtain ⟨a',found',same | ⟨_,unresolved' | ⟨j,rfl,reserved⟩⟩⟩ := admission_move move found
  · exact ⟨a',found',same ▸ unresolved⟩
  · exact ⟨a',found',unresolved'⟩
  · have := (Move.orderly move).reservedOnce i j key holds.reserved reserved
    exact (other (this ▸ rfl)).elim

/-- The owner has not submitted yet. -/
structure Fresh (i : Nat) (key : AdmissionKey) (c : Instant o) : Prop where
  holds : Holds i key c
  unsubmitted : ¬c.Happened (submits key ·)
  unrun : c.state.store.runs.get key = none

/-- The owner waits for the answer to its submission. -/
structure Awaiting (i : Nat) (key : AdmissionKey) (c : Instant o) : Prop where
  holds : Holds i key c
  unrun : c.state.store.runs.get key = none

theorem awaiting_stable (i : Nat) (key : AdmissionKey) : Stable (discipline o) i (Awaiting i key) := by
  intro who c c' other move awaiting
  refine ⟨holds_stable i key other move awaiting.holds,?_⟩
  rcases move_cases move with ⟨store,_⟩ | ⟨j,cmd,rfl,rfl,_,guard⟩
  · rw [store]
    exact awaiting.unrun
  · rcases exec_runs o c.state cmd with same | ⟨k,snapshot,rfl,put⟩
    · exact (congrArg (·.get key) same).trans awaiting.unrun
    · by_cases here : key = k
      · subst here
        obtain ⟨_,⟨run,stored,_⟩ | ⟨_,reserved⟩,_⟩ := guard
        · simp [awaiting.unrun] at stored
        · have := (Move.orderly move).reservedOnce i j key awaiting.holds.reserved reserved
          exact (other (this ▸ rfl)).elim
      · exact (congrArg (·.get key) put).trans ((Table.get_put_other _ _ here).trans awaiting.unrun)

theorem fresh_stable (i : Nat) (key : AdmissionKey) : Stable (discipline o) i (Fresh i key) := by
  intro who c c' other move fresh
  obtain ⟨holds,unrun⟩ := awaiting_stable i key other move ⟨fresh.holds,fresh.unrun⟩
  refine ⟨holds,fun submitted => ?_,unrun⟩
  rcases submit_move move submitted with before | ⟨j,rfl,owner⟩
  · exact fresh.unsubmitted before
  · have := (Move.orderly move).reservedOnce i j key fresh.holds.reserved owner.reserved
    exact other (this ▸ rfl)

end Neurobro.Agent
