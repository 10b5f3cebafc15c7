import Neurobro.Agent.BrokerConduct

/-! The controller keeps the discipline: what it records about a run comes from the
engine's own answer, and what it submits is reserved, unanswered and alone. -/
namespace Neurobro.Agent

open Coop

variable {o : Options} {i : Nat}

theorem calm_stopChildren (T : TaskId) (reason : String) (revision : Nat) :
    Calm (stopChildren T reason revision : M o Bool) := by
  refine .bind (.look _) fun _ => .ite (.pure _) ?_
  refine .bind (calm_act trivial fun _ _ => trivial) fun _ => .bind (calm_ask fun _ _ => trivial) fun r => ?_
  cases r with
  | ok result => exact .bind (calm_act trivial fun _ _ => trivial) fun _ => .pure _
  | error e => exact .bind (calm_act trivial fun _ _ => trivial) fun _ => .pure _

theorem calm_hold (T : TaskId) (reason : String) (resume : Bool) : Calm (hold T reason resume : M o Unit) :=
  .bind (.check _) fun intent => .bind (calm_act trivial fun _ _ => trivial) fun _ =>
    .bind (.lift _) fun _ => .bind (calm_await (calm_stopChildren T reason intent.revision)) fun _ => .pure _

/-- Every hold that ends a path is awaited. -/
theorem calm_held (T : TaskId) (reason : String) (resume : Bool) :
    Calm (Async.await (hold T reason resume) : M o Unit) := calm_await (calm_hold T reason resume)

theorem calm_prepareTaskAuthority (T : TaskId) : Calm (prepareTaskAuthority T : M o ToolContext) := by
  refine .bind (.check _) fun ⟨intent,grant⟩ => .bind (calm_act trivial fun _ _ => trivial) fun baseline => ?_
  refine .ite ?_ ?_
  · exact .bind (calm_ask fun _ _ => trivial) fun _ => .bind (.lift _) fun _ => .bind (.pure _) fun _ =>
      .bind (calm_act trivial fun _ _ => trivial) fun _ => .bind (.lift _) fun _ => .check _
  · exact .bind (calm_await (.pure _)) fun _ =>
      .bind (calm_act trivial fun _ _ => trivial) fun _ => .bind (.lift _) fun _ => .check _

/-! ## Runs -/

/-- The run of this snapshot is the one on record for its revision. -/
def Registered (snapshot : RunSnapshot) : Instant o → Prop :=
  HasRun snapshot.binding.admissionKey snapshot.binding.runId

theorem registered_lasting (snapshot : RunSnapshot) :
    Lasting (discipline o) (Registered (o := o) snapshot) := hasRun_lasting _ _

theorem registered_of_mem (orderly : Orderly o c) {snapshot : RunSnapshot}
    (listed : snapshot ∈ c.state.runs o) : Registered snapshot c := by
  obtain ⟨key,found⟩ := Table.mem_list.mp listed
  exact ⟨snapshot,(orderly.run key snapshot found).1 ▸ found,rfl⟩

theorem checkSnapshot_ok {snapshot : RunSnapshot} {revision : Nat} {key : String}
    (h : checkSnapshot snapshot T revision key = .ok ()) : snapshot.binding.admissionKey = (T,revision) := by
  unfold checkSnapshot at h
  simp only at h
  split at h
  · contradiction
  · rename_i fits
    simp only [not_or,not_not] at fits
    simp [RunBinding.admissionKey,fits.1,fits.2.1]

/-- The engine's own snapshot is on record for this revision. -/
structure Recorded (key : AdmissionKey) (snapshot : RunSnapshot) (c : Instant o) : Prop where
  named : snapshot.binding.admissionKey = key
  has : HasRun key snapshot.binding.runId c
  returned : c.Happened (returns snapshot)

theorem Recorded.finished {key : AdmissionKey} {snapshot : RunSnapshot}
    (recorded : Recorded key snapshot c) (ended : terminal snapshot.state) : Finished key c :=
  ⟨snapshot,recorded.has,recorded.named,ended,recorded.returned⟩

/-- A snapshot is recorded for the run already on record, or by the admission's owner. -/
theorem acceptSnapshot_spec {snapshot : RunSnapshot} {revision : Nat} (key : String)
    {A B : Instant o → Prop} (owned : ∀ c, A c → HasRun (T,revision) snapshot.binding.runId c ∨
      (c.state.store.runs.get (T,revision) = none ∧ c.Happened (reserves i (T,revision))))
    (kept : ∀ c, A c → B (c.act i (.putRun (T,revision) snapshot))) :
    Triple (discipline o) i (fun c => A c ∧ c.Happened (returns snapshot))
      (acceptSnapshot snapshot T revision key)
      (onResult (fun _ c => Recorded (T,revision) snapshot c ∧ B c) A) := by
  refine .bind (Q := onResult (fun _ c => snapshot.binding.admissionKey = (T,revision) ∧ A c ∧
    c.Happened (returns snapshot)) A) (.lift fun c _ ⟨a,returned⟩ => ?_) (fun _ => ?_) fun _ _ _ a => a
  · cases checked : checkSnapshot snapshot T revision key with
    | error e => exact a
    | ok _ => exact ⟨checkSnapshot_ok checked,a,returned⟩
  · refine .act (discipline_sound o)
      (fun c _ ⟨named,a,returned⟩ => ⟨trivial,named,owned c a,fun _ => returned⟩) ?_
    rintro c _ ⟨named,a,returned⟩ _
    exact ⟨⟨named,⟨snapshot,Table.get_put_same _ _ _,rfl⟩,returned.records (c.records_act _ _)⟩,kept c a⟩

/-- What the engine answers has been returned by it. -/
theorem ask_spec (stable : Stable (discipline o) i B)
    (may : ∀ c, A c → CallGuard i q c) (asked : ∀ c, A c → B (c.call i q))
    (answered : ∀ c r, B c → B (c.reply i q r)) :
    Triple (discipline o) i A (ask q)
      (onResult (fun r c => B c ∧ ∀ snapshot, q.answers r snapshot → c.Happened (returns snapshot))
        fun _ => False) := by
  refine .call (discipline_sound o) stable (fun c _ a => may c a) (fun c _ a => asked c a) ?_
  rintro c r _ b
  exact ⟨answered c r b,fun snapshot answer => (Core.happened_records (c.records_reply i q r)).mpr (.inl answer)⟩

/-- A question about a run leaves that run on record. -/
theorem askRun_spec {key : AdmissionKey} (may : ∀ c : Instant o, CallGuard i q c) :
    Triple (discipline o) i (HasRun (o := o) key runId) (ask q) (onResult (fun r c =>
      HasRun key runId c ∧ ∀ snapshot, q.answers r snapshot → c.Happened (returns snapshot)) fun _ => False) :=
  ask_spec (hasRun_lasting key runId).stable (fun c _ => may c) (fun _ has => has) fun _ _ has => has

/-- Cancelling a run on record records its end when the engine reports one. -/
theorem cancelRun_spec (binding : RunBinding) (T : TaskId) (revision : Nat) (key : String) :
    Triple (discipline o) i (HasRun (T,revision) binding.runId) (cancelRun binding T revision key)
      (onOk fun ended c => terminal ended.state → Finished (T,revision) c) := by
  refine .bind (askRun_spec (q := .cancel binding) fun _ => trivial) (fun r => ?_) fun _ _ _ _ => trivial
  refine .bind (Q := onOk fun ended c => HasRun (T,revision) binding.runId c ∧ c.Happened (returns ended))
    (.lift fun c _ ⟨has,returned⟩ => ?_) (fun ended => ?_) fun _ _ _ _ => trivial
  · cases r with
    | error e => trivial
    | ok ended => exact ⟨has,returned ended rfl⟩
  · split
    · exact .lift fun _ _ _ => trivial
    · rename_i same
      refine .bind (acceptSnapshot_spec (i := i) key (B := fun _ => True) (fun c has => .inl ?_)
        fun _ _ => trivial) (fun _ => .pure fun c _ recorded => ?_) fun _ _ _ _ => trivial
      · rwa [not_not.mp same]
      · exact recorded.1.finished

theorem markUnknown_conduct (snapshot : RunSnapshot) (reason : String) :
    Triple (discipline o) i (Registered snapshot) (markUnknown snapshot snapshot.binding.taskId reason)
      fun _ _ => True := by
  refine .seq (Q := onOk fun _ => Registered snapshot) (.look fun _ _ has => has) fun now => ?_
  exact .act (discipline_sound o) (fun c _ has => ⟨trivial,rfl,.inl has,fun ended => by simp [terminal] at ended⟩)
    fun _ _ _ _ => trivial

theorem inspectRun_conduct (snapshot : RunSnapshot) :
    Triple (discipline o) i (Registered snapshot) (inspectRun snapshot) fun _ _ => True := by
  refine .seq (.settled ?_ (registered_lasting snapshot) fun _ has => has) fun r => ?_
  · refine .seq (askRun_spec (q := .inspect snapshot.binding) fun _ => trivial) fun r => ?_
    refine .seq (Q := onOk fun updated c => Registered snapshot c ∧ c.Happened (returns updated))
      (.lift fun c _ ⟨has,returned⟩ => ?_) fun updated => ?_
    · cases r with
      | error e => trivial
      | ok updated => exact ⟨has,returned updated rfl⟩
    · split
      · exact .lift fun _ _ _ => trivial
      · rename_i same
        refine (acceptSnapshot_spec (i := i) _ (B := fun _ => True) (fun c has => .inl ?_)
          fun _ _ => trivial).post fun _ _ _ _ => trivial
        rwa [not_not.mp same]
  · cases r with
    | ok _ => exact .pure fun _ _ _ => trivial
    | error e => exact markUnknown_conduct snapshot _

/-- A shared inspection is made by one fiber and awaited by the rest. -/
theorem refresh_conduct (snapshot : RunSnapshot) :
    Triple (discipline o) i (Registered snapshot) (refresh snapshot) fun _ _ => True := by
  have lasting := registered_lasting (o := o) snapshot
  refine .seq (Q := onOk fun _ => Registered snapshot) (.look fun _ _ has => has) fun active => ?_
  cases active with
  | some action => exact .join (discipline_sound o) lasting.stable fun _ _ _ _ => trivial
  | none =>
    refine .seq (Q := onOk fun _ _ => True) (.fork (discipline_sound o) lasting.stable
      (fun j _ => inspectRun_conduct snapshot) (fun _ _ has => has) fun _ _ _ _ => trivial) fun action => ?_
    have rest : Calm (do
        commit (.setPoll snapshot.binding.admissionKey action)
        let settled ← Async.settle (Async.join action)
        commit (.clearPoll snapshot.binding.admissionKey)
        orThrow settled : M o Unit) :=
      .bind (calm_act trivial fun _ _ => trivial) fun _ =>
        .bind (.settle (.join (discipline_sound o) action)) fun _ =>
          .bind (calm_act trivial fun _ _ => trivial) fun _ => .lift _
    exact rest i untaken

/-! ## Admission -/

/-- The admission is this fiber's own, not submitted yet, and nothing earlier is open. -/
structure Ready (i : Nat) (intent : TaskIntent) (token : Token) (c : Instant o) : Prop where
  fresh : Fresh i (intent.id,intent.revision) c
  prior : PriorClosed intent.id intent.revision c
  issued : ∃ context : ToolContext, context.taskId = intent.id ∧ c.Happened (issues token context)

section ready

variable {c c' : Instant o} {who : Option Nat} {intent : TaskIntent} {token : Token}

theorem Ready.move (ready : Ready i intent token c) (move : Move (discipline o) who c c')
    (fresh : Fresh i (intent.id,intent.revision) c') : Ready i intent token c' := by
  obtain ⟨context,task,issued⟩ := ready.issued
  exact ⟨fresh,priorClosed_lasting _ _ move ready.prior,context,task,Core.happened_lasting move issued⟩

theorem ready_stable (i : Nat) (intent : TaskIntent) (token : Token) :
    Stable (discipline o) i (Ready i intent token) :=
  fun _ _ _ other move ready => ready.move move (fresh_stable i _ other move ready.fresh)

/-- The owner may ask for anything but a submission. -/
theorem Fresh.records {key : AdmissionKey} (fresh : Fresh i key c)
    (records : c.Records c' e) (store : c'.state.store = c.state.store) (other : ¬submits key e) :
    Fresh i key c' := by
  refine ⟨⟨fresh.holds.reserved.records records,by rw [store]; exact fresh.holds.unresolved⟩,fun happened => ?_,
    by rw [store]; exact fresh.unrun⟩
  exact fresh.unsubmitted (((Core.happened_records records).mp happened).resolve_left other)

/-- A token resolves only under the present, unrevoked grant of its task. -/
theorem Ready.current (orderly : Orderly o c) (ready : Ready i intent token c) {record : ContextRecord} (resolved : c.state.resolve token = .ok record) :
    ∃ actual grant, c.state.authority.Current intent.id actual grant ∧ grant.revokedAt = none := by
  obtain ⟨context,task,issued⟩ := ready.issued
  obtain ⟨stored,⟨actual,grant⟩,valid⟩ := State.resolve_ok resolved
  obtain ⟨_,⟨record',found,same⟩,_⟩ := orderly.issued token context issued
  cases Option.some.inj (stored.symm.trans found)
  obtain ⟨held,granted,named,_,_,_,unrevoked,_⟩ := State.validateContext_ok valid
  refine ⟨actual,grant,⟨?_,?_⟩,unrevoked⟩
  · rw [← task,← same.taskId]; exact held
  · have keyed := (orderly.authority.grant _ _ granted).1
    rw [named,keyed]; exact granted

end ready

theorem prepareSubmission_spec (intent : TaskIntent) (token : Token) :
    Triple (discipline o) i (Ready i intent token) (prepareSubmission intent token)
      (onResult (fun _ c => Ready i intent token c ∧ ∃ actual grant,
        c.state.authority.Current intent.id actual grant ∧ grant.revokedAt = none) (Ready i intent token)) := by
  have stable := ready_stable (o := o) i intent token
  have checked (prepared : PreparedInput) : Triple (discipline o) i (Ready i intent token) (do
      let _ ← require (·.resolve token)
      pure prepared) (onResult (fun _ c => Ready i intent token c ∧ ∃ actual grant,
        c.state.authority.Current intent.id actual grant ∧ grant.revokedAt = none) (Ready i intent token)) := by
    refine .bind (Q := onResult (fun _ c => Ready i intent token c ∧ ∃ actual grant,
      c.state.authority.Current intent.id actual grant ∧ grant.revokedAt = none) (Ready i intent token))
      (.check fun c orderly ready => ?_) (fun _ => .pure fun _ _ known => known) fun _ _ _ ready => ready
    cases resolved : c.state.resolve token with
    | error e => exact ready
    | ok record => exact ⟨ready,ready.current orderly resolved⟩
  refine .ite (fun _ => ?_) fun _ => ?_
  · refine .bind (Q := onResult (fun _ => Ready i intent token) fun _ => False)
      (.call (discipline_sound o) stable (fun _ _ _ => trivial) (fun c _ ready => ?_) fun c r _ ready => ?_)
      (fun r => .bind (Q := fun _ => Ready i intent token) (.lift fun _ _ ready => ready) checked
        fun _ _ _ ready => ready) fun _ _ _ no => no.elim
    · exact ready.move (.call ‹_› trivial) (ready.fresh.records (c.records_call i _) rfl (by simp [submits]))
    · exact ready.move (.reply _ r ‹_›) (ready.fresh.records (c.records_reply i _ r) rfl (by simp [submits]))
  · exact .bind (Q := fun _ => Ready i intent token)
      (.await (discipline_sound o) (.pure fun _ _ ready => ready) fun _ => stable) checked fun _ _ _ ready => ready

/-- The owner of an answered submission binds it, or still holds the admission. -/
theorem bindSubmission_spec (intent : TaskIntent) {admission : Admission} (snapshot : RunSnapshot)
    (key : admission.admissionKey = (intent.id,intent.revision)) :
    Triple (discipline o) i
      (fun c => Awaiting i (intent.id,intent.revision) c ∧ c.Happened (returns snapshot))
      (bindSubmission intent admission snapshot)
      (onResult (fun _ _ => True) (Holds i (intent.id,intent.revision))) := by
  refine .bind (acceptSnapshot_spec (i := i) admission.key
    (B := fun c => Holds i (intent.id,intent.revision) c ∧ (c.state.store.runs.get (intent.id,intent.revision)).isSome)
    (fun c awaiting => .inr ⟨awaiting.unrun,awaiting.holds.reserved⟩) fun c awaiting => ⟨?_,?_⟩)
    (fun _ => ?_) fun _ _ _ awaiting => awaiting.holds
  · exact ⟨awaiting.holds.reserved.records (c.records_act i _),awaiting.holds.unresolved⟩
  · exact Option.isSome_of_eq_some (Table.get_put_same _ _ _)
  · refine .bind (Q := onResult (fun _ c => HasRun (intent.id,intent.revision) snapshot.binding.runId c)
      fun _ => False) (.act (discipline_sound o) (fun c _ ⟨_,holds,run⟩ => ?_) fun c _ ⟨recorded,_,_⟩ _ => ?_)
      (fun _ => ?_) fun _ _ _ no => no.elim
    · refine ⟨trivial,?_,?_,fun _ => ?_⟩
      · exact key ▸ holds
      · simp
      · exact key ▸ run
    · exact recorded.has
    · refine .bind (Q := onResult (fun r c => HasRun (intent.id,intent.revision) snapshot.binding.runId c ∧
        ∀ e, r = .error e → e.isAuthority) fun _ => False) ?_ (fun r => ?_) fun _ _ _ no => no.elim
      · refine .act (discipline_sound o) (fun _ _ _ => ⟨trivial,trivial⟩) fun c orderly has _ => ⟨?_,?_⟩
        · exact hasRun_lasting _ _ (.act orderly ⟨trivial,trivial⟩) has
        · exact fun e failed => State.bindToken_error (transact_error failed)
      · cases r with
        | ok _ => exact .pure fun _ _ _ => trivial
        | error e =>
          refine .ite (fun other => ?_) fun _ => ?_
          · exact .lift fun c _ ⟨_,authority⟩ => by simp [authority e rfl] at other
          · refine .bind (.settle (T := onResult (fun _ _ => True) fun _ => False) ?_)
              (fun _ => .pure fun _ _ _ => trivial) fun _ _ _ no => no.elim
            exact (cancelRun_spec _ _ _ _).weaken (fun _ _ known => known.1) fun _ _ _ _ => trivial

/-- Submitting: the answer is awaited by the owner, who then binds it or gives it up. -/
theorem submission_spec (intent : TaskIntent) {admission : Admission} (prepared : PreparedInput)
    (previous : Option RunSnapshot) (key : admission.admissionKey = (intent.id,intent.revision)) :
    Triple (discipline o) i
      (fun c => Ready i intent admission.token c ∧ ∃ actual grant,
        c.state.authority.Current intent.id actual grant ∧ grant.revokedAt = none)
      (do
        let snapshot ← orThrow (← ask (.submit (engineInput intent admission prepared previous)))
        bindSubmission intent admission snapshot)
      (onResult (fun _ _ => True) (Holds i (intent.id,intent.revision))) := by
  refine .bind (ask_spec (q := .submit (engineInput intent admission prepared previous))
    (awaiting_stable i (intent.id,intent.revision)) (fun c ⟨ready,authority⟩ => ?_)
    (fun c ⟨ready,_⟩ => ?_) fun c r awaiting => ?_) (fun r => ?_) fun _ _ _ no => no.elim
  · exact ⟨ready.fresh.holds,ready.fresh.unsubmitted,ready.prior,authority⟩
  · exact ⟨⟨ready.fresh.holds.reserved.records (c.records_call i _),ready.fresh.holds.unresolved⟩,ready.fresh.unrun⟩
  · exact ⟨⟨awaiting.holds.reserved.records (c.records_reply i _ r),awaiting.holds.unresolved⟩,awaiting.unrun⟩
  · refine .bind (Q := onResult (fun snapshot c => Awaiting i (intent.id,intent.revision) c ∧
      c.Happened (returns snapshot)) (Holds i (intent.id,intent.revision)))
      (.lift fun c _ ⟨awaiting,returned⟩ => ?_) (fun snapshot => bindSubmission_spec intent snapshot key)
      fun _ _ _ holds => holds
    cases r with
    | error e => exact awaiting.holds
    | ok snapshot => exact ⟨awaiting,returned snapshot rfl⟩

theorem submitReserved_conduct (intent : TaskIntent) {admission : Admission}
    (key : admission.admissionKey = (intent.id,intent.revision)) :
    Triple (discipline o) i (Ready i intent admission.token) (submitReserved intent admission)
      fun _ _ => True := by
  refine .seq (.settle (T := onResult (fun r c => Ready i intent admission.token c ∧ ∀ prepared,
    r = .ok prepared → ∃ actual grant, c.state.authority.Current intent.id actual grant ∧
      grant.revokedAt = none) fun _ => False) ((prepareSubmission_spec intent admission.token).post ?_))
    fun r => ?_
  · rintro (e | prepared) c _ known
    · exact ⟨known,fun _ no => by cases no⟩
    · exact ⟨known.1,fun _ _ => known.2⟩
  · cases r with
    | error e =>
      refine .seq (Q := fun _ _ => True) (.act (discipline_sound o) (fun c _ given => ?_)
        fun _ _ _ _ => trivial) fun _ => calm_held _ _ _ i untaken
      obtain ⟨ready,_⟩ := given
      exact ⟨trivial,key ▸ ready.fresh.holds,fun _ => key ▸ ready.fresh.unsubmitted,by simp⟩
    | ok prepared =>
      refine .seq (Q := onOk fun _ c => Ready i intent admission.token c ∧ ∃ actual grant,
        c.state.authority.Current intent.id actual grant ∧ grant.revokedAt = none)
        (.look fun c _ given => ⟨given.1,given.2 prepared rfl⟩) fun previous => ?_
      refine .seq (.settle (T := onResult (fun r c => ∀ e, r = .error e →
        Holds i (intent.id,intent.revision) c) fun _ => False)
        ((submission_spec intent prepared previous key).post ?_)) fun r => ?_
      · rintro (e | _) c _ holds
        · exact fun _ _ => holds
        · intro _ no
          cases no
      · cases r with
        | ok _ => exact .pure fun _ _ _ => trivial
        | error e =>
          refine .act (discipline_sound o) (fun c _ holds => ?_) fun _ _ _ _ => trivial
          exact ⟨trivial,key ▸ holds e rfl,by simp,by simp⟩

/-- The task is at this very revision. -/
def AtRevision (T : TaskId) (revision : Nat) (c : Instant o) : Prop :=
  ∃ actual, c.state.store.tasks.get T = some actual ∧ actual.revision = revision

/-- A reservation that is won belongs to this fiber, and nothing was made under it before. -/
theorem reserve_fresh (orderly : Orderly o c) {admission : Admission}
    (reserved : admission.state = .reserved) (won : (c.state.reserve admission).1 = true) :
    Fresh i admission.admissionKey (c.act i (.reserve admission)) := by
  obtain ⟨new,stored⟩ := reserve_won won
  have admissions : (c.act i (.reserve admission)).state.store.admissions = _ := stored
  refine ⟨⟨happened_act.mpr (.inl ⟨rfl,rfl,won⟩),admission,?_,?_⟩,fun submitted => ?_,?_⟩
  · rw [admissions]
    exact Table.get_put_same _ _ _
  · simp [reserved,AdmissionState.unresolved]
  · simpa [new] using orderly.submitted _ (submits_act.mp submitted)
  · rcases exec_runs o c.state (.reserve admission) with same | ⟨_,_,no,_⟩
    · show (exec o (.reserve admission) c.state).2.store.runs.get _ = none
      rw [same]
      cases found : c.state.store.runs.get admission.admissionKey with
      | none => rfl
      | some run => simpa [new] using (orderly.run _ run found).2.1
    · contradiction

theorem issue_atRevision {c : Instant o} {revision : Nat} {context : ToolContext}
    (at' : AtRevision T revision c) : AtRevision T revision (c.act i (.issue context)) := by
  obtain ⟨actual,task,same⟩ := at'
  refine ⟨actual,?_,same⟩
  show (transact c.state (c.state.issue o context)).2.store.tasks.get T = some actual
  rcases transact_cases c.state (c.state.issue o context) with ⟨token,s',issued,done⟩ | ⟨e,failed⟩
  · obtain ⟨_,_,rfl⟩ := State.issue_ok issued
    rw [done]
    exact task
  · rw [failed]
    exact task

theorem admitPrepared_conduct (intent : TaskIntent) :
    Triple (discipline o) i
      (fun c => AtRevision intent.id intent.revision c ∧ PriorClosed intent.id intent.revision c)
      (admitPrepared intent) fun _ _ => True := by
  have prior := priorClosed_lasting (o := o) intent.id intent.revision
  refine .seq (Q := onOk fun _ c => AtRevision intent.id intent.revision c ∧
    PriorClosed intent.id intent.revision c) (.check fun c _ known => ?_) fun grant => ?_
  · cases c.state.requireGrant intent.grantId with
    | error e => trivial
    | ok grant => exact known
  refine .seq (Q := onOk fun _ c => AtRevision intent.id intent.revision c ∧
    PriorClosed intent.id intent.revision c) (.look fun _ _ known => known) fun expired => ?_
  refine .ite (fun _ => calm_held _ _ _ i untaken |>.pre fun _ _ _ => trivial) fun _ => ?_
  let context : ToolContext :=
    { taskId := intent.id
      intentRevision := intent.revision
      grantId := grant.id
      grantRevision := grant.revision
      runId := "admission:" ++ submissionKey o intent }
  -- Everything known here lasts through the draw of the token to the reservation.
  refine .seq (Q := onResult (fun r c => (AtRevision intent.id intent.revision c ∧
    ∀ token, r = .ok token → c.Happened (issues token context)) ∧ PriorClosed intent.id intent.revision c)
    fun _ => False) (.act (discipline_sound o) (fun _ _ _ => ⟨trivial,trivial⟩) fun c orderly known _ => ?_)
    fun r => ?_
  · refine ⟨⟨issue_atRevision known.1,fun token issued => happened_act.mpr (.inl ⟨rfl,issued⟩)⟩,?_⟩
    exact prior (.act orderly ⟨trivial,trivial⟩) known.2
  refine .seq (Q := onOk fun token c => (AtRevision intent.id intent.revision c ∧
    c.Happened (issues token context)) ∧ PriorClosed intent.id intent.revision c)
    (.lift fun c _ known => ?_) fun token => ?_
  · cases r with
    | error e => trivial
    | ok token => exact ⟨⟨known.1.1,known.1.2 token rfl⟩,known.2⟩
  refine .seq (Q := onOk fun _ c => (AtRevision intent.id intent.revision c ∧
    c.Happened (issues token context)) ∧ PriorClosed intent.id intent.revision c)
    (.look fun _ _ known => known) fun now => ?_
  refine .seq (Q := onOk fun won c => won = true → Ready i intent token c)
    (.act (discipline_sound o) (fun c _ known => ⟨trivial,rfl,known.1.1⟩) ?_) fun won => ?_
  · rintro c orderly ⟨⟨at',issued⟩,closed⟩ _ won
    exact ⟨reserve_fresh orderly rfl won,prior (.act orderly ⟨trivial,rfl,at'⟩) closed,context,rfl,
      issued.records (c.records_act i _)⟩
  · refine .ite (fun yes => ?_) fun _ => .pure fun _ _ _ => trivial
    exact (submitReserved_conduct intent rfl).pre fun _ _ ready => ready yes

/-- A task is admitted at one revision, with nothing earlier open. -/
theorem admitIntent_conduct (intent : TaskIntent) :
    Triple (discipline o) i (PriorClosed intent.id intent.revision) (admitIntent intent) fun _ _ => True := by
  have prior := priorClosed_lasting (o := o) intent.id intent.revision
  refine .seq (Q := onOk fun _ => PriorClosed intent.id intent.revision) (.check fun c _ closed => ?_)
    fun actual => ?_
  · cases c.state.requireTask intent.id with
    | error e => trivial
    | ok actual => exact closed
  refine .ite (fun _ => .pure fun _ _ _ => trivial) fun _ => ?_
  refine .seq (Q := onOk fun _ => PriorClosed intent.id intent.revision) (.look fun _ _ closed => closed)
    fun unsettled => ?_
  refine .ite (fun _ => calm_held _ _ _ i untaken |>.pre fun _ _ _ => trivial) fun _ => ?_
  refine .seq (.settled (calm_await (calm_prepareTaskAuthority _) |>.triple untaken) prior fun _ closed => closed)
    fun authority => ?_
  refine .seq (Q := onOk fun actual (c : Instant o) => c.state.store.tasks.get intent.id = some actual ∧
    PriorClosed intent.id intent.revision c) (.check fun c _ closed => ?_) fun actual => ?_
  · cases stored : c.state.requireTask intent.id with
    | error e => trivial
    | ok actual => exact ⟨State.requireTask_ok stored,closed⟩
  refine .ite (fun _ => .pure fun _ _ _ => trivial) fun same => ?_
  cases authority with
  | error e => exact calm_held _ _ _ i untaken |>.pre fun _ _ _ => trivial
  | ok _ =>
    exact (admitPrepared_conduct intent).pre fun _ _ ⟨task,closed⟩ => ⟨⟨actual,task,not_not.mp same⟩,closed⟩

end Neurobro.Agent
