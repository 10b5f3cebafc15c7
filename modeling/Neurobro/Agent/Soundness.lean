import Neurobro.Agent.Discipline

/-! The discipline is kept: every commit, call, reply and change of the surroundings
that obeys its guards leaves the store and the history in agreement, and so does a
crash. -/
namespace Neurobro.Agent

open Coop

variable {o : Options} {c c' : Instant o} {e : Event (agent o)}

/-! ## Events that commit nothing -/

/-- A store that stays while the history grows by a call, a reply or a shock. -/
theorem Orderly.records (orderly : Orderly o c) (records : c.Records c' e)
    (store : c'.state.store = c.state.store) (fresh : c'.state.fresh = c.state.fresh)
    (passive : ∀ i cmd r, e ≠ .act i cmd r)
    (dispatch : ∀ id, dispatches id e → ¬c.Happened (dispatches id ·) ∧
      (c.state.store.effects.get id).isSome)
    (submit : ∀ key, submits key e → ¬c.Happened (submits key ·) ∧
      ∃ a, c.state.store.admissions.get key = some a ∧ a.state ≠ .blocked) : Orderly o c' := by
  have authority : c'.state.authority = c.state.authority := by
    simp only [State.authority,store,fresh]
  have noIssue : ∀ token context, ¬issues token context e := by
    intro token context issue
    unfold issues at issue
    split at issue
    · exact passive _ _ _ rfl
    · exact issue
  have noWithdrawal : ∀ T, ¬withdraws T e := by
    intro T withdrawal
    unfold withdraws at withdrawal
    split at withdrawal <;> first | exact passive _ _ _ rfl | exact withdrawal
  have noReserve : ∀ i key, c'.Happened (reserves i key) → c.Happened (reserves i key) := by
    intro i key happened
    refine ((Core.happened_records records).mp happened).resolve_left fun reserve => ?_
    unfold reserves at reserve
    split at reserve
    · exact passive _ _ _ rfl
    · exact reserve
  refine ⟨authority ▸ orderly.authority,?_,?_,?_,?_,?_,?_,?_,?_,?_,?_⟩
  · intro token context happened
    have before := ((Core.happened_records records).mp happened).resolve_left (noIssue token context)
    rw [store,fresh,authority]
    exact orderly.issued token context before
  · intro token context followed
    rw [authority]
    rcases (Core.followed_records records).mp followed with ⟨withdrawal,_⟩ | before
    · exact (noWithdrawal _ withdrawal).elim
    · exact orderly.withdrawn token context before
  · intro id happened
    rw [store]
    rcases (Core.happened_records records).mp happened with new | before
    · exact (dispatch id new).2
    · exact orderly.dispatched id before
  · intro id
    exact (orderly.dispatchedOnce id).records records fun new => (dispatch id new).1
  · intro i key happened
    rw [store]
    exact orderly.reserved i key (noReserve i key happened)
  · intro i j key first second
    exact orderly.reservedOnce i j key (noReserve i key first) (noReserve j key second)
  · intro key happened
    rw [store]
    rcases (Core.happened_records records).mp happened with new | before
    · obtain ⟨a,found,_⟩ := (submit key new).2
      exact Option.isSome_of_eq_some found
    · exact orderly.submitted key before
  · intro key
    exact (orderly.submittedOnce key).records records fun new => (submit key new).1
  · intro key a found
    rw [store] at found ⊢
    obtain ⟨named,positive,blocked,bound⟩ := orderly.admission key a found
    refine ⟨named,positive,fun state happened => ?_,bound⟩
    rcases (Core.happened_records records).mp happened with new | before
    · obtain ⟨a',found',open'⟩ := (submit key new).2
      cases Option.some.inj (found.symm.trans found')
      exact open' state
    · exact blocked state before
  · intro key run found
    rw [store] at found ⊢
    obtain ⟨named,admitted,ended⟩ := orderly.run key run found
    exact ⟨named,admitted,fun state => (ended state).records records⟩

theorem Orderly.call (orderly : Orderly o c) {i : Nat} {q : Call} (may : CallGuard i q c) :
    Orderly o (c.call i q) := by
  refine orderly.records (c.records_call i q) rfl rfl (fun _ _ _ same => by cases same) ?_ ?_
  · intro id dispatched
    cases q with
    | dispatch effect token =>
      obtain rfl : effect.id = id := by simpa [dispatches] using dispatched
      exact ⟨may.1,may.2.1⟩
    | _ => exact absurd dispatched (by simp [dispatches])
  · intro key submitted
    cases q with
    | submit input =>
      obtain rfl : (input.taskId,input.intentRevision) = key := by simpa [submits] using submitted
      obtain ⟨a,found,unresolved⟩ := may.1.unresolved
      exact ⟨may.2.1,a,found,fun blocked => by simp [blocked,AdmissionState.unresolved] at unresolved⟩
    | _ => exact absurd submitted (by simp [submits])

theorem Orderly.reply (orderly : Orderly o c) (i : Nat) (q : Call) (r : q.Reply) :
    Orderly o (c.reply i q r) :=
  orderly.records (c.records_reply i q r) rfl rfl (fun _ _ _ same => by cases same)
    (fun _ new => absurd new (by simp [dispatches])) fun _ new => absurd new (by simp [submits])

theorem Orderly.shock (orderly : Orderly o c) (x : Shock) : Orderly o (c.shock x) :=
  orderly.records (c.records_shock x) (by cases x <;> rfl) (by cases x <;> rfl)
    (fun _ _ _ same => by cases same)
    (fun _ new => absurd new (by simp [dispatches])) fun _ new => absurd new (by simp [submits])

theorem Orderly.crash (orderly : Orderly o c) : Orderly o c.crash :=
  orderly.records c.records_crash rfl rfl (fun _ _ _ same => by cases same)
    (fun _ new => absurd new (by simp [dispatches])) fun _ new => absurd new (by simp [submits])

/-! ## Withdrawals -/

section withdrawals

variable {s s' : State} {T : TaskId}

/-- Revoking the current grant withdraws the authority of its task. -/
theorem revoked_withdraws (valid : s.authority.Valid o) {grant next : Grant}
    (current : s.authority.Current T intent grant) (stored : s'.store.grants.get grant.id = some next)
    (revoked : next.revokedAt.isSome) : Ledger.Withdraws T s.authority.ledger s'.authority.ledger := by
  intro g held
  have : g = grant.id := by
    have named := (valid.grantId current).1
    simpa [Authority.ledger,current.1,named] using held.symm
  exact .inl ⟨next,this ▸ stored,revoked⟩

theorem cancelTask_withdraws (valid : s.authority.Valid o) (h : s.cancelTask o T = .ok ((),s')) :
    Ledger.Withdraws T s.authority.ledger s'.authority.ledger := by
  obtain ⟨intent,grant,current,same⟩ := State.cancelTask_ok h
  have grants : s'.store.grants = _ := congrArg Authority.grants same
  exact revoked_withdraws valid current (by rw [grants]; exact Table.get_put_same _ _ _) rfl

theorem holdTask_withdraws (valid : s.authority.Valid o) {reason : String} {resume : Bool}
    (h : s.holdTask o T reason resume = .ok ((),s')) :
    Ledger.Withdraws T s.authority.ledger s'.authority.ledger := by
  obtain ⟨intent,task,⟨cancelled,rfl⟩ | ⟨grant,current,_,same⟩⟩ := State.holdTask_ok h
  · -- The cancellation before it has revoked the grant already.
    obtain ⟨grant,stored⟩ := valid.granted T intent task
    obtain ⟨k,control,gone⟩ := State.cancelledIn_iff.mp cancelled
    have revoked := valid.cancelled T k intent grant control gone ⟨task,stored⟩
    exact revoked_withdraws valid ⟨task,stored⟩ ((valid.grantId ⟨task,stored⟩).1 ▸ stored) revoked
  · have grants : s'.store.grants = _ := congrArg Authority.grants same
    exact revoked_withdraws valid current (by rw [grants]; exact Table.get_put_same _ _ _) rfl

theorem narrowGrant_withdraws (valid : s.authority.Valid o)
    (h : s.narrowGrant T peerId = .ok ((),s')) :
    Ledger.Withdraws T s.authority.ledger s'.authority.ledger := by
  obtain ⟨intent,grant,current,rfl⟩ := State.narrowGrant_ok h
  intro g held
  have named := (valid.grantId current).1
  have : g = grant.id := by simpa [Authority.ledger,current.1,named] using held.symm
  subst this
  have stored : s.authority.grants.get grant.id = some grant := by rw [named]; exact current.2
  exact .inr ⟨grant.revision,grant.revision + 1,by simp [Authority.ledger,stored],
    by simp [Authority.ledger,State.authority,State.narrowedGrant],Nat.lt_succ_self _⟩

theorem correctTask_withdraws (valid : s.authority.Valid o) {request : CorrectionRequest}
    {corrected : Corrected} (new : s.changeApplied request = false)
    (h : s.correctTask o request = .ok (corrected,s')) :
    Ledger.Withdraws request.taskId s.authority.ledger s'.authority.ledger := by
  obtain ⟨actual,_,⟨applied,_⟩ | ⟨grant,granted,deadlines,current,_,_,_,_,same⟩⟩ := State.correctTask_ok h
  · simp [new] at applied
  · have grants : s'.store.grants = _ := congrArg Authority.grants same
    have old : grant.id ≠ s.fresh := Nat.ne_of_lt (valid.grantId current).2
    exact revoked_withdraws valid current
      (by rw [grants,Table.get_put_other _ _ old]; exact Table.get_put_same _ _ _) rfl

/-- Whatever commits as a withdrawal of the task withdraws its authority in the ledger. -/
theorem exec_withdraws (valid : s.authority.Valid o)
    (unapplied : ∀ request, cmd = .correctTask request → s.changeApplied request = false)
    (withdrawal : withdraws (o := o) T (.act i cmd (exec o cmd s).1)) :
    Ledger.Withdraws T s.authority.ledger (exec o cmd s).2.authority.ledger := by
  cases cmd with
  | cancelTask T' =>
    obtain ⟨rfl,committed⟩ := withdrawal
    exact cancelTask_withdraws valid (transact_ok committed)
  | holdTask T' reason resume =>
    obtain ⟨rfl,committed⟩ := withdrawal
    exact holdTask_withdraws valid (transact_ok committed)
  | narrowGrant T' peerId =>
    obtain ⟨rfl,committed⟩ := withdrawal
    exact narrowGrant_withdraws valid (transact_ok committed)
  | correctTask request =>
    obtain ⟨rfl,corrected,committed⟩ := withdrawal
    exact correctTask_withdraws valid (unapplied request rfl) (transact_ok committed)
  | _ => exact False.elim withdrawal

end withdrawals

/-! ## Commits -/

section commits

variable {i : Nat} {cmd : Cmd}

theorem reserve_won {s : State} (won : (s.reserve a).1 = true) :
    s.store.admissions.get a.admissionKey = none ∧
      (s.reserve a).2.store.admissions = s.store.admissions.put a.admissionKey a := by
  unfold State.reserve at won ⊢
  split at won
  · contradiction
  · rename_i new
    exact ⟨new,rfl⟩

theorem happened_act : (c.act i cmd).Happened p ↔ p (.act i cmd (exec o cmd c.state).1) ∨ c.Happened p:=
  Core.happened_records (c.records_act i cmd)

@[simp] theorem dispatches_act {id : EffectId} :
    (c.act i cmd).Happened (dispatches id ·) ↔ c.Happened (dispatches id ·) := by
  simp [happened_act,dispatches]

@[simp] theorem submits_act {key : AdmissionKey} :
    (c.act i cmd).Happened (submits key ·) ↔ c.Happened (submits key ·) := by
  simp [happened_act,submits]

theorem reserves_act {j : Nat} {key : AdmissionKey} (happened : (c.act i cmd).Happened (reserves j key)) :
    c.Happened (reserves j key) ∨
      (j = i ∧ c.state.store.admissions.get key = none ∧
        ((exec o cmd c.state).2.store.admissions.get key).isSome) := by
  rcases happened_act.mp happened with reserve | before
  · cases cmd with
    | reserve a =>
      obtain ⟨rfl,rfl,won⟩ := reserve
      obtain ⟨new,stored⟩ := reserve_won won
      refine .inr ⟨rfl,new,?_⟩
      show ((c.state.reserve a).2.store.admissions.get a.admissionKey).isSome
      rw [stored,Table.get_put_same]
      rfl
    | _ => exact False.elim reserve
  · exact .inl before

theorem admission_kept (o : Options) (cmd : Cmd) {key : AdmissionKey}
    (found : (s.store.admissions.get key).isSome) :
    ((exec o cmd s).2.store.admissions.get key).isSome := by
  rcases exec_admissions o s cmd with same | ⟨_,_,_,put⟩ | ⟨_,_,put⟩ | ⟨_,_,_,_,_,_,_,_,put⟩
  · rw [same]; exact found
  all_goals
    rw [put,Table.get_put]
    split
    · rfl
    · exact found

theorem run_kept (o : Options) (cmd : Cmd) {key : AdmissionKey}
    (found : (s.store.runs.get key).isSome) : ((exec o cmd s).2.store.runs.get key).isSome := by
  rcases exec_runs o s cmd with same | ⟨_,_,_,put⟩
  · rw [same]; exact found
  · rw [put,Table.get_put]
    split
    · rfl
    · exact found

theorem unapplied (guard : Guard i cmd c) :
    ∀ request, cmd = .correctTask request → c.state.changeApplied request = false := by
  rintro request rfl
  exact guard

/-- A token that was issued stays on record, under a stamp taken from the ledger. -/
theorem Orderly.issued_act (orderly : Orderly o c) (formed : cmd.Wellformed) {token : Token}
    {context : ToolContext} (happened : (c.act i cmd).Happened (issues token context)) :
    token < (exec o cmd c.state).2.fresh ∧
    (∃ record, (exec o cmd c.state).2.store.contexts.get token = some record ∧
      record.context.Same context) ∧
    (exec o cmd c.state).2.authority.ledger.Dated context.stamp := by
  have step := exec_step orderly.authority formed
  rcases happened_act.mp happened with issue | before
  · cases cmd with
    | issue issued =>
      obtain ⟨rfl,committed⟩ := issue
      obtain ⟨⟨current,valid⟩,rfl,after⟩ := State.issue_ok (transact_ok committed)
      have known := State.validateContext_ok valid
      have shape : (exec o (.issue issued) c.state).2 = _ := after
      rw [shape] at step ⊢
      refine ⟨Nat.lt_succ_self _,⟨_,Table.get_put_same _ _ _,rfl,rfl,rfl,rfl⟩,?_⟩
      refine (step.advance orderly.authority).dated ⟨?_,⟨current.1.grantId,?_⟩,current.2.revision,?_,?_⟩
      · exact (orderly.authority.grant _ _ known.2.1).2
      · simpa [Authority.ledger,State.authority,ToolContext.stamp] using ⟨_,known.1,rfl⟩
      · simpa [Authority.ledger,State.authority,ToolContext.stamp] using ⟨_,known.2.1,rfl⟩
      · exact Nat.le_of_eq known.2.2.2.2.2.1.symm
    | _ => exact False.elim issue
  · obtain ⟨old,⟨record,found,same⟩,dated⟩ := orderly.issued token context before
    obtain ⟨record',found',same'⟩ := exec_context found old
    refine ⟨Nat.lt_of_lt_of_le old step.fresh,⟨record',found',?_⟩,
      (step.advance orderly.authority).dated dated⟩
    exact ⟨same'.taskId.trans same.taskId,same'.intentRevision.trans same.intentRevision,
      same'.grantId.trans same.grantId,same'.grantRevision.trans same.grantRevision⟩

theorem Orderly.withdrawn_act (orderly : Orderly o c) (formed : cmd.Wellformed) (guard : Guard i cmd c)
    {token : Token} {context : ToolContext}
    (followed : (c.act i cmd).Followed (issues token context) (withdraws context.taskId)) :
    (exec o cmd c.state).2.authority.ledger.Spent context.stamp := by
  have advance := (exec_step orderly.authority formed).advance orderly.authority
  rcases (Core.followed_records (c.records_act i cmd)).mp followed with ⟨withdrawal,issued⟩ | before
  · exact advance.withdrawn (orderly.issued token context issued).2.2
      (exec_withdraws orderly.authority (unapplied guard) withdrawal)
  · exact advance.spent (orderly.withdrawn token context before)

theorem Orderly.admission_act (orderly : Orderly o c) (guard : Guard i cmd c) {key : AdmissionKey}
 (found : (exec o cmd c.state).2.store.admissions.get key = some a) :
    a.admissionKey = key ∧ 1 ≤ key.2 ∧ (a.state = .blocked → ¬c.Happened (submits key ·)) ∧
      (a.state = .bound → (c.state.store.runs.get key).isSome) := by
  rcases exec_admissions o c.state cmd with
    same | ⟨b,rfl,_,put⟩ | ⟨b,rfl,put⟩ | ⟨_,b,lost,rfl,held,_,unknown,named,put⟩
  · rw [same] at found
    exact orderly.admission key a found
  all_goals
    rw [put,Table.get_put] at found
    split at found
    on_goal 2 => exact orderly.admission key a found
    rename_i here
    subst here
    cases Option.some.inj found
  · obtain ⟨reserved,intent,task,revision⟩ := guard
    refine ⟨rfl,?_,by simp [reserved],by simp [reserved]⟩
    show 1 ≤ a.revision
    rw [← revision]
    exact (orderly.authority.task _ _ task).2
  · obtain ⟨holds,blocked,bound⟩ := guard
    obtain ⟨old,stored,_⟩ := holds.unresolved
    exact ⟨rfl,(orderly.admission _ old stored).2.1,blocked,bound⟩
  · obtain ⟨before,positive,_⟩ := orderly.admission _ b held
    exact ⟨named.trans before,positive,by simp [unknown],by simp [unknown]⟩

theorem Orderly.run_act (orderly : Orderly o c) (guard : Guard i cmd c) {key : AdmissionKey}
    {run : RunSnapshot} (found : (exec o cmd c.state).2.store.runs.get key = some run) :
    run.binding.admissionKey = key ∧ (c.state.store.admissions.get key).isSome ∧
      (terminal run.state → c.Happened (returns run)) := by
  rcases exec_runs o c.state cmd with same | ⟨k,snapshot,rfl,put⟩
  · rw [same] at found
    exact orderly.run key run found
  · rw [put,Table.get_put] at found
    split at found
    · rename_i here
      subst here
      cases Option.some.inj found
      obtain ⟨named,⟨before,stored,_⟩ | ⟨_,reserved⟩,ended⟩ := guard
      · exact ⟨named,(orderly.run _ before stored).2.1,ended⟩
      · exact ⟨named,orderly.reserved i _ reserved,ended⟩
    · exact orderly.run key run found

theorem Orderly.act (orderly : Orderly o c) (formed : cmd.Wellformed) (guard : Guard i cmd c) :
    Orderly o (c.act i cmd) where
  authority := (exec_step orderly.authority formed).valid orderly.authority
  issued _ _ happened := orderly.issued_act formed happened
  withdrawn _ _ followed := orderly.withdrawn_act formed guard followed
  dispatched id happened := by
    obtain ⟨e,found⟩ := Option.isSome_iff_exists.mp (orderly.dispatched id (dispatches_act.mp happened))
    obtain ⟨e',found',_⟩ := @exec_effect o _ cmd _ _ found
    exact Option.isSome_of_eq_some found'
  dispatchedOnce id := (orderly.dispatchedOnce id).records (c.records_act i cmd) (by simp [dispatches])
  reserved j key happened := by
    rcases reserves_act happened with before | ⟨_,_,stored⟩
    · exact admission_kept o cmd (orderly.reserved j key before)
    · exact stored
  reservedOnce j k key first second := by
    rcases reserves_act first with before | ⟨rfl,new,_⟩ <;>
      rcases reserves_act second with before' | ⟨rfl,new',_⟩
    · exact orderly.reservedOnce j k key before before'
    · simpa [new'] using orderly.reserved j key before
    · simpa [new] using orderly.reserved k key before'
    · rfl
  submitted key happened := admission_kept o cmd (orderly.submitted key (submits_act.mp happened))
  submittedOnce key := (orderly.submittedOnce key).records (c.records_act i cmd) (by simp [submits])
  admission key a found := by
    obtain ⟨named,positive,blocked,bound⟩ := orderly.admission_act guard found
    exact ⟨named,positive,fun state => by simpa using blocked state,fun state => run_kept o cmd (bound state)⟩
  run key run found := by
    obtain ⟨named,admitted,ended⟩ := orderly.run_act guard found
    exact ⟨named,admission_kept o cmd admitted,fun state => (ended state).records (c.records_act i cmd)⟩

end commits

theorem discipline_sound (o : Options) : (discipline o).Sound where
  move := by
    intro who c c' move
    cases move with
    | act orderly may => exact Orderly.act orderly may.1 may.2
    | call orderly may => exact Orderly.call orderly may
    | reply q r orderly => exact Orderly.reply orderly _ q r
    | shock x orderly => exact Orderly.shock orderly x
  crash orderly := Orderly.crash orderly

end Neurobro.Agent
