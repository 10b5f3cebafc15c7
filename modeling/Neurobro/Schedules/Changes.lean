import Neurobro.Data.Results
import Neurobro.Schedules.Coordinator

/-! What a commit can do to the stored schedules: nothing, a new one, a row that goes on
from the old one, or a row with one more execution. Tokens and credentials are drawn
fresh, so they tell executions and schedules apart in every later state. -/
namespace Neurobro.Schedules

open Jobs (ToolContext)

/-- An execution keeps its run and its token; it is not un-revoked and not un-completed. -/
structure Execution.Continues (old new : Execution) : Prop where
  runId : new.runId = old.runId
  token : new.token = old.token
  revoked : old.revoked = true → new.revoked = true
  manifest : old.manifest.isSome = true → new.manifest.isSome = true

theorem Execution.Continues.refl (entry : Execution) : entry.Continues entry := ⟨rfl,rfl,id,id⟩

structure ScheduleRecord.Continues (old new : ScheduleRecord) : Prop where
  id : new.id = old.id
  credential : new.credential = old.credential
  kept : ∀ {e entry}, old.executions.get e = some entry →
    ∃ entry', new.executions.get e = some entry' ∧ entry.Continues entry'
  known : ∀ {e entry'}, new.executions.get e = some entry' → ∃ entry, old.executions.get e = some entry

/-- One commit's change of the stored schedules. -/
inductive Rewrites (s s' : State) : Prop where
  | same (schedules : s'.schedules = s.schedules) (fresh : s'.fresh = s.fresh)
  | added {id : String} {record : ScheduleRecord} (absent : s.schedules.get id = none) (keyed : record.id = id)
      (drawn : record.credential = .issued s.fresh) (empty : record.executions = ∅)
      (schedules : s'.schedules = s.schedules.put id record) (fresh : s'.fresh = s.fresh + 1)
  | continued {id : String} {old new : ScheduleRecord} (found : s.schedules.get id = some old)
      (continues : old.Continues new) (schedules : s'.schedules = s.schedules.put id new) (fresh : s'.fresh = s.fresh)
  | admitted {id e : String} {old : ScheduleRecord} {entry : Execution} (found : s.schedules.get id = some old)
      (absent : old.executions.get e = none) (drawn : entry.token = s.fresh)
      (schedules : s'.schedules = s.schedules.put id (old.putExecution e entry)) (fresh : s'.fresh = s.fresh + 1)

/-! ## What the pieces of a transaction leave alone -/

section pieces

variable {s s' : State} {token : Token}

@[simp] theorem revokeToolContext_schedules : (s.revokeToolContext token).schedules = s.schedules := by
  unfold State.revokeToolContext
  split <;> rfl

@[simp] theorem revokeToolContext_fresh : (s.revokeToolContext token).fresh = s.fresh := by
  unfold State.revokeToolContext
  split <;> rfl

theorem revokeTokens_same (record : ScheduleRecord) :
    (s.revokeTokens record).schedules = s.schedules ∧ (s.revokeTokens record).fresh = s.fresh := by
  unfold State.revokeTokens
  induction record.executions.entries.map (fun e => e.2.token) generalizing s with
  | nil => exact ⟨rfl,rfl⟩
  | cons token rest ih =>
    have first := ih (s := s.revokeToolContext token)
    simpa using first

theorem schedule_found {id : String} {record : ScheduleRecord} (h : s.schedule id = .ok record) :
    s.schedules.get id = some record := by
  unfold State.schedule at h
  split at h
  · rename_i found
    rw [found,Except.ok.inj h]
  · contradiction

/-- A row of the task that asks. -/
theorem owned_found {context : ToolContext} {id : String} {record : ScheduleRecord}
    (h : s.owned context id = .ok record) : s.schedules.get id = some record := by
  obtain ⟨_,_,h⟩ := bind_ok h
  split at h
  · contradiction
  · rename_i found
    cases Except.ok.inj (guard_eq_ok.mp h).2
    exact found

theorem credentialRecord_found {record : ScheduleRecord}
    (h : s.credentialRecord o credential = .ok record) :
    (∃ id, s.schedules.get id = some record) ∧ record.credential = credential := by
  unfold State.credentialRecord at h
  obtain ⟨_,h⟩ := guard_eq_ok.mp h
  split at h
  · contradiction
  · rename_i found
    obtain ⟨_,h⟩ := guard_eq_ok.mp h
    obtain ⟨_,_,h⟩ := bind_ok h
    cases Except.ok.inj h
    exact ⟨Table.mem_list.mp (List.mem_of_find?_eq_some found),by simpa using List.find?_some found⟩

theorem entry_found {record : ScheduleRecord} {entry : Execution}
    (h : record.entry e = .ok (some entry)) : record.executions.get e = some entry := by
  unfold ScheduleRecord.entry at h
  split at h
  · rename_i found
    rw [found,← Except.ok.inj h]
  · split at h <;> simp at h

theorem entry_absent {record : ScheduleRecord} (h : record.entry e = .ok none) : record.executions.get e = none:= by
  unfold ScheduleRecord.entry at h
  split at h
  · simp at h
  · assumption

end pieces

/-! ## Rows that go on -/

theorem continues_of_executions {old new : ScheduleRecord} (id : new.id = old.id)
    (credential : new.credential = old.credential) (executions : new.executions = old.executions) :
    old.Continues new := by
  refine ⟨id,credential,fun {e entry} found => ⟨entry,?_,.refl entry⟩,fun {e entry} found => ⟨entry,?_⟩⟩
  · rw [executions,found]
  · rw [← executions,found]

theorem revokeExecutions_continues (record : ScheduleRecord) : record.Continues record.revokeExecutions := by
  refine ⟨rfl,rfl,fun {e entry} found => ?_,fun {e entry} found => ?_⟩
  · refine ⟨{ entry with revoked := true },?_,⟨rfl,rfl,fun _ => rfl,id⟩⟩
    unfold ScheduleRecord.revokeExecutions
    rw [Table.get_mapRows,found]
    rfl
  · unfold ScheduleRecord.revokeExecutions at found
    rw [Table.get_mapRows] at found
    obtain ⟨entry,found,_⟩ := Option.map_eq_some_iff.mp found
    exact ⟨entry,found⟩

theorem putExecution_continues {record : ScheduleRecord} {old new : Execution}
    (found : record.executions.get e = some old) (continues : old.Continues new) :
    record.Continues (record.putExecution e new) := by
  refine ⟨rfl,rfl,fun {e' entry} known => ?_,fun {e' entry} known => ?_⟩
  · by_cases same : e' = e
    · subst same
      cases found.symm.trans known
      exact ⟨new,Table.get_put_same _ _ _,continues⟩
    · exact ⟨entry,by simpa [ScheduleRecord.putExecution,Table.get_put_other _ _ same] using known,.refl entry⟩
  · by_cases same : e' = e
    · exact ⟨old,same ▸ found⟩
    · exact ⟨entry,by simpa [ScheduleRecord.putExecution,Table.get_put_other _ _ same] using known⟩

/-! ## Each command -/

theorem transaction_rewrites {α : Type} {r : Except Err (α × State)}
    (h : ∀ a s', r = .ok (a,s') → Rewrites s s') : Rewrites s (transaction s r).2 := by
  unfold transaction
  split
  · exact h _ _ rfl
  · exact .same rfl rfl

/-- A row saved over itself. -/
theorem rewrites_put {id : String} {old new : ScheduleRecord} (found : s.schedules.get id = some old)
    (continues : old.Continues new) : Rewrites s (s.putSchedule id new) := .continued found continues rfl rfl

theorem rewrites_revoking {id : String} {old new : ScheduleRecord} (record : ScheduleRecord)
    (found : s.schedules.get id = some old) (continues : old.Continues new) :
    Rewrites s ((s.revokeTokens record).putSchedule id new) := by
  obtain ⟨schedules,fresh⟩ := revokeTokens_same (s := s) record
  exact .continued found continues (by unfold State.putSchedule; rw [schedules]) fresh

theorem rewrites_closing {id : String} {old new : ScheduleRecord} (token : Token)
    (found : s.schedules.get id = some old) (continues : old.Continues new) :
    Rewrites s ((s.revokeToolContext token).putSchedule id new) :=
  .continued found continues (by simp [State.putSchedule]) (by simp [State.putSchedule])

/-- Rows stand under their own identifiers. -/
def Keyed (s : State) : Prop := ∀ {id record}, s.schedules.get id = some record → record.id = id

theorem credentialRecord_stored (keyed : Keyed s)
    {record : ScheduleRecord} (h : s.credentialRecord o credential = .ok record) :
    s.schedules.get record.id = some record := by
  obtain ⟨⟨id,found⟩,_⟩ := credentialRecord_found h
  exact keyed found ▸ found

section commands

variable {o : Options} {s : State}

theorem prepare_rewrites (context : ToolContext) (spec : ScheduleSpec) (id : String) :
    Rewrites s (exec o (.prepare context spec id) s).2 := by
  apply transaction_rewrites
  intro a s' h
  obtain ⟨_,_,h⟩ := bind_ok h
  split at h
  · cases (guard_eq_ok.mp h).2
    exact .same rfl rfl
  · rename_i absent
    cases Except.ok.inj h
    exact .added absent rfl rfl rfl rfl rfl

theorem activate_rewrites (id jobId : String) : Rewrites s (exec o (.activate id jobId) s).2 := by
  apply transaction_rewrites
  intro a s' h
  obtain ⟨current,found,h⟩ := bind_ok h
  cases (guard_eq_ok.mp h).2
  exact rewrites_put (schedule_found found) (continues_of_executions rfl rfl rfl)

theorem requestControl_rewrites (context : ToolContext) (id : String) (action : Control) :
    Rewrites s (exec o (.requestControl context id action) s).2 := by
  apply transaction_rewrites
  intro a s' h
  obtain ⟨record,owned,h⟩ := bind_ok h
  have found := owned_found owned
  split at h
  · contradiction
  · obtain ⟨_,h⟩ := guard_eq_ok.mp h
    obtain ⟨_,h⟩ := guard_eq_ok.mp h
    have pending : record.Continues { record with pendingControl := some action } :=
      continues_of_executions rfl rfl rfl
    split at h
    · cases Except.ok.inj h
      exact rewrites_put found pending
    · cases Except.ok.inj h
      apply rewrites_revoking record found
      obtain ⟨id,credential,kept,known⟩ := revokeExecutions_continues record
      exact ⟨id,credential,kept,known⟩

theorem finishControl_rewrites (id : String) (action : Control) :
    Rewrites s (exec o (.finishControl id action) s).2 := by
  apply transaction_rewrites
  intro a s' h
  obtain ⟨latest,found,h⟩ := bind_ok h
  cases Except.ok.inj h
  exact rewrites_put (schedule_found found) (continues_of_executions rfl rfl rfl)

theorem hostCancel_rewrites (input : HostCancellationInput) (id : String) :
    Rewrites s (exec o (.hostCancel input id) s).2 := by
  apply transaction_rewrites
  intro a s' h
  unfold State.hostCancel at h
  split at h
  · contradiction
  · rename_i current found
    obtain ⟨_,h⟩ := guard_eq_ok.mp h
    split at h
    · cases Except.ok.inj h
      exact .same rfl rfl
    · cases Except.ok.inj h
      apply rewrites_revoking current found
      obtain ⟨id,credential,kept,known⟩ := revokeExecutions_continues current
      exact ⟨id,credential,kept,known⟩

theorem discover_rewrites (id discovered : String) : Rewrites s (exec o (.discover id discovered) s).2 := by
  apply transaction_rewrites
  intro a s' h
  obtain ⟨latest,found,h⟩ := bind_ok h
  cases (guard_eq_ok.mp h).2
  exact rewrites_put (schedule_found found) (continues_of_executions rfl rfl rfl)

theorem hostCleanup_rewrites (id : String) (nativeCleanup : Cleanup) (reason : Option CancellationReason) :
    Rewrites s (exec o (.hostCleanup id nativeCleanup reason) s).2 := by
  apply transaction_rewrites
  intro a s' h
  obtain ⟨latest,found,h⟩ := bind_ok h
  split at h
  · contradiction
  · cases Except.ok.inj h
    exact rewrites_put (schedule_found found) (continues_of_executions rfl rfl rfl)

theorem saveBinding_rewrites (id : String) (state : BindingState) (reason : Option BindingReason) :
    Rewrites s (exec o (.saveBinding id state reason) s).2 := by
  apply transaction_rewrites
  intro a s' h
  obtain ⟨latest,found,h⟩ := bind_ok h
  cases Except.ok.inj h
  exact rewrites_put (schedule_found found) (continues_of_executions rfl rfl rfl)

theorem closeCallback_rewrites {id execution : String}
 (h : s.closeCallback id execution disposition = .ok (a,s')) : Rewrites s s' := by
  obtain ⟨latest,found,h⟩ := bind_ok h
  obtain ⟨entry,read,h⟩ := bind_ok h
  cases entry with
  | none => contradiction
  | some current =>
    cases Except.ok.inj h
    exact rewrites_closing _ (schedule_found found)
      (putExecution_continues (entry_found read) ⟨rfl,rfl,fun _ => rfl,fun kept => kept⟩)

/-- A schedule that admits executions of a native job. -/
structure ScheduleRecord.Admits (record : ScheduleRecord) (job : String) : Prop where
  job : record.nativeJobId = some job
  active : record.state = .active
  settled : record.pendingControl = none
  bound : record.bindingUnknown = false

/-- What an admission hands out: the token of a live execution once more, or a new one. -/
inductive Hands (s : State) (record : ScheduleRecord) (job e : String) : Token → State → Prop
  | again {old : Execution} (found : record.executions.get e = some old) (unfinished : old.manifest = none)
      (live : old.revoked = false) : Hands s record job e old.token s
  | fresh {s' : State} (absent : record.executions.get e = none)
      (schedules : s'.schedules =
        s.schedules.put record.id (record.putExecution e (newExecution s job e s.fresh)))
      (fresh : s'.fresh = s.fresh + 1) : Hands s record job e s.fresh s'

theorem admit_ok {job e : String} {token : Token}
    (h : s.admitExecution o credential job e = .ok (token,s')) :
    ∃ record, s.credentialRecord o credential = .ok record ∧ record.Admits job ∧ Hands s record job e token s' := by
  obtain ⟨record,found,h⟩ := bind_ok h
  obtain ⟨admits,h⟩ := guard_eq_ok.mp h
  simp only [Bool.or_eq_true,decide_eq_true_eq,not_or,not_not,Bool.not_eq_true] at admits
  obtain ⟨⟨⟨job,active⟩,settled⟩,bound⟩ := admits
  refine ⟨record,found,⟨job,active,by simpa using settled,bound⟩,?_⟩
  obtain ⟨entry,read,h⟩ := bind_ok h
  cases entry with
  | some old =>
    obtain ⟨unfinished,h⟩ := guard_eq_ok.mp h
    obtain ⟨live,h⟩ := guard_eq_ok.mp h
    obtain ⟨_,_,h⟩ := bind_ok h
    cases Except.ok.inj h
    exact .again (entry_found read) (Option.not_isSome_iff_eq_none.mp unfinished) (Bool.eq_false_iff.mpr live)
  | none =>
    obtain ⟨_,_,h⟩ := bind_ok h
    obtain ⟨issued,drawn,h⟩ := bind_ok h
    obtain ⟨_,_,drawn⟩ := bind_ok drawn
    cases Except.ok.inj drawn
    cases Except.ok.inj h
    exact .fresh (entry_absent read) rfl rfl

theorem admit_rewrites (keyed : Keyed s) (credential : Credential) (job e : String) :
    Rewrites s (exec o (.admitExecution credential job e) s).2 := by
  apply transaction_rewrites
  intro token s' h
  obtain ⟨record,found,_,hands⟩ := admit_ok h
  cases hands with
  | again => exact .same rfl rfl
  | fresh absent schedules fresh =>
    exact .admitted (credentialRecord_stored keyed found) absent rfl schedules fresh

/-- What recording a result does: nothing when it had been recorded, else its manifest is
stored. -/
inductive Recording (s : State) (latest : ScheduleRecord) (e : String) : Bool → State → Prop
  | replayed : Recording s latest e true s
  | recorded {admitted new : Execution} {s' : State} (found : latest.executions.get e = some admitted)
      (unfinished : admitted.manifest = none) (continues : admitted.Continues new)
      (finished : new.manifest.isSome = true)
      (schedules : s'.schedules = s.schedules.put latest.id (latest.putExecution e new))
      (fresh : s'.fresh = s.fresh) : Recording s latest e false s'

theorem record_ok {body : Json}
    (h : s.recordResult o credential e runId body = .ok (replayed,s')) :
    ∃ latest, s.credentialRecord o credential = .ok latest ∧ Recording s latest e replayed s' := by
  obtain ⟨latest,found,h⟩ := bind_ok h
  refine ⟨latest,found,?_⟩
  obtain ⟨entry,read,h⟩ := bind_ok h
  cases entry with
  | none => contradiction
  | some admitted =>
    have stored := entry_found read
    obtain ⟨_,h⟩ := guard_eq_ok.mp h
    split at h
    · cases (guard_eq_ok.mp h).2
      exact .replayed
    · rename_i unfinished
      split at h
      · obtain ⟨_,_,h⟩ := bind_ok h
        cases Except.ok.inj h
        refine .recorded stored unfinished ?_ ?_ rfl rfl
        · exact ⟨rfl,rfl,fun kept => kept,fun _ => rfl⟩
        · rfl
      · cases Except.ok.inj h
        let closed := { admitted with manifest := some body, revoked := true }
        have continues : admitted.Continues closed := ⟨rfl,rfl,fun _ => rfl,fun _ => rfl⟩
        exact .recorded stored unfinished continues rfl (by simp [State.putSchedule,closed])
          (by simp [State.putSchedule])

theorem record_rewrites (keyed : Keyed s) (credential : Credential) (e runId : String) (body : Json) :
    Rewrites s (exec o (.recordResult credential e runId body) s).2 := by
  apply transaction_rewrites
  intro replayed s' h
  obtain ⟨latest,found,recording⟩ := record_ok h
  cases recording with
  | replayed => exact .same rfl rfl
  | recorded stored _ continues _ schedules fresh =>
    exact .continued (credentialRecord_stored keyed found) (putExecution_continues stored continues) schedules fresh

/-- Every command changes the stored schedules in one of the four ways. -/
theorem exec_rewrites (keyed : Keyed s) (cmd : Cmd) : Rewrites s (exec o cmd s).2 := by
  cases cmd with
  | prepare context spec id => exact prepare_rewrites context spec id
  | activate id jobId => exact activate_rewrites id jobId
  | requestControl context id action => exact requestControl_rewrites context id action
  | finishControl id action => exact finishControl_rewrites id action
  | hostCancel input id => exact hostCancel_rewrites input id
  | discover id discovered => exact discover_rewrites id discovered
  | hostCleanup id nativeCleanup reason => exact hostCleanup_rewrites id nativeCleanup reason
  | saveBinding id state reason => exact saveBinding_rewrites id state reason
  | admitExecution credential job e => exact admit_rewrites keyed credential job e
  | recordResult credential e runId body => exact record_rewrites keyed credential e runId body
  | finishCallback id e state => exact transaction_rewrites fun _ _ => closeCallback_rewrites
  | withdrawCallback id e => exact transaction_rewrites fun _ _ => closeCallback_rewrites

end commands

/-! ## Executions by the credential of their schedule -/

/-- The schedule with this credential holds this execution. -/
def Entry (s : State) (credential : Credential) (e : String) (entry : Execution) : Prop :=
  ∃ id record, s.schedules.get id = some record ∧ record.credential = credential ∧
    record.executions.get e = some entry

/-- Draws tell schedules and executions apart. -/
structure Tidy (s : State) : Prop where
  keyed : Keyed s
  drawn : ∀ {id record}, s.schedules.get id = some record → ∃ n < s.fresh, record.credential = .issued n
  unique : ∀ {id id' record record'}, s.schedules.get id = some record → s.schedules.get id' = some record' →
    record.credential = record'.credential → id = id'
  tokens : ∀ {credential e entry}, Entry s credential e entry → entry.token < s.fresh
  apart : ∀ {credential credential' e e' entry entry'}, Entry s credential e entry →
    Entry s credential' e' entry' → entry.token = entry'.token → credential = credential' ∧ e = e'

theorem Tidy.entry_unique (tidy : Tidy s)
    {entry entry' : Execution} (first : Entry s credential e entry) (second : Entry s credential e entry') :
    entry = entry' := by
  obtain ⟨id,record,found,named,stored⟩ := first
  obtain ⟨id',record',found',named',stored'⟩ := second
  obtain rfl := tidy.unique found found' (named.trans named'.symm)
  cases found.symm.trans found'
  exact Option.some.inj (stored.symm.trans stored')

section keeping

variable {s s' : State} {credential : Credential} {e : String}

theorem Rewrites.grows (step : Rewrites s s') : s.fresh ≤ s'.fresh := by
  cases step with
  | same _ fresh => omega
  | added _ _ _ _ _ fresh => omega
  | continued _ _ _ fresh => omega
  | admitted _ _ _ _ fresh => omega

/-- A stored execution goes on through every commit. -/
theorem Rewrites.entry (step : Rewrites s s') {entry : Execution} (known : Entry s credential e entry) :
    ∃ entry', Entry s' credential e entry' ∧ entry.Continues entry' := by
  obtain ⟨id,record,found,named,stored⟩ := known
  cases step with
  | same schedules => exact ⟨entry,⟨id,record,schedules ▸ found,named,stored⟩,.refl entry⟩
  | @added id' new absent _ _ _ schedules =>
    have other : id ≠ id' := by
      rintro rfl
      cases absent.symm.trans found
    refine ⟨entry,⟨id,record,?_,named,stored⟩,.refl entry⟩
    rw [schedules,Table.get_put_other _ _ other,found]
  | @continued id' old new found' continues schedules =>
    by_cases same : id = id'
    · subst same
      cases found.symm.trans found'
      obtain ⟨entry',stored',goes⟩ := continues.kept stored
      refine ⟨entry',⟨id,new,?_,continues.credential.trans named,stored'⟩,goes⟩
      rw [schedules,Table.get_put_same]
    · refine ⟨entry,⟨id,record,?_,named,stored⟩,.refl entry⟩
      rw [schedules,Table.get_put_other _ _ same,found]
  | @admitted id' e' old new found' absent _ schedules =>
    by_cases same : id = id'
    · subst same
      cases found.symm.trans found'
      have other : e ≠ e' := by
        rintro rfl
        cases absent.symm.trans stored
      refine ⟨entry,⟨id,record.putExecution e' new,?_,named,?_⟩,.refl entry⟩
      · rw [schedules,Table.get_put_same]
      · exact (Table.get_put_other _ _ other).trans stored
    · refine ⟨entry,⟨id,record,?_,named,stored⟩,.refl entry⟩
      rw [schedules,Table.get_put_other _ _ same,found]

/-- Every execution stored after a commit was there before, save for the one it admitted. -/
theorem Rewrites.origin (step : Rewrites s s') : ∃ new : Option (Credential × String),
    (new.isSome → s.fresh < s'.fresh) ∧ ∀ {credential e entry'}, Entry s' credential e entry' →
      (∃ entry, Entry s credential e entry ∧ entry.token = entry'.token) ∨
      (new = some (credential,e) ∧ entry'.token = s.fresh) := by
  cases step with
  | same schedules =>
    refine ⟨none,by simp,?_⟩
    rintro credential e entry' ⟨id,record,found,named,stored⟩
    exact .inl ⟨entry',⟨id,record,schedules ▸ found,named,stored⟩,rfl⟩
  | @added id' new absent _ _ empty schedules =>
    refine ⟨none,by simp,?_⟩
    rintro credential e entry' ⟨id,record,found,named,stored⟩
    rw [schedules,Table.get_put] at found
    split at found
    · cases Option.some.inj found
      rw [empty,Table.get_empty] at stored
      cases stored
    · exact .inl ⟨entry',⟨id,record,found,named,stored⟩,rfl⟩
  | @continued id' old new found' continues schedules =>
    refine ⟨none,by simp,?_⟩
    rintro credential e entry' ⟨id,record,found,named,stored⟩
    rw [schedules,Table.get_put] at found
    split at found
    · cases Option.some.inj found
      obtain ⟨entry,known⟩ := continues.known stored
      obtain ⟨entry'',stored',goes⟩ := continues.kept known
      cases stored.symm.trans stored'
      exact .inl ⟨entry,⟨id',old,found',continues.credential.symm.trans named,known⟩,goes.token.symm⟩
    · exact .inl ⟨entry',⟨id,record,found,named,stored⟩,rfl⟩
  | @admitted id' e' old new found' absent drawn schedules fresh =>
    refine ⟨some (old.credential,e'),fun _ => by omega,?_⟩
    rintro credential e entry' ⟨id,record,found,named,stored⟩
    rw [schedules,Table.get_put] at found
    split at found
    · cases Option.some.inj found
      unfold ScheduleRecord.putExecution at stored named
      rw [Table.get_put] at stored
      split at stored
      · rename_i same
        cases Option.some.inj stored
        exact .inr ⟨by rw [same,← named],drawn⟩
      · exact .inl ⟨entry',⟨id',old,found',named,stored⟩,rfl⟩
    · exact .inl ⟨entry',⟨id,record,found,named,stored⟩,rfl⟩

/-- Every row after a commit is an old one gone on, or drew the next number. -/
theorem Rewrites.row (step : Rewrites s s') : ∃ new : Option String, (new.isSome → s.fresh < s'.fresh) ∧
    ∀ {id record'}, s'.schedules.get id = some record' →
      (∃ record, s.schedules.get id = some record ∧ record'.id = record.id ∧
        record'.credential = record.credential) ∨
      (new = some id ∧ record'.id = id ∧ record'.credential = .issued s.fresh) := by
  cases step with
  | same schedules =>
    refine ⟨none,by simp,?_⟩
    intro id record' found
    exact .inl ⟨record',schedules ▸ found,rfl,rfl⟩
  | @added id' new absent keyed drawn _ schedules fresh =>
    refine ⟨some id',fun _ => by omega,?_⟩
    intro id record' found
    rw [schedules,Table.get_put] at found
    split at found
    · rename_i same
      cases Option.some.inj found
      exact .inr ⟨by rw [same],keyed.trans same.symm,drawn⟩
    · exact .inl ⟨record',found,rfl,rfl⟩
  | @continued id' old new found' continues schedules =>
    refine ⟨none,by simp,?_⟩
    intro id record' found
    rw [schedules,Table.get_put] at found
    split at found
    · rename_i same
      cases Option.some.inj found
      exact .inl ⟨old,same ▸ found',continues.id,continues.credential⟩
    · exact .inl ⟨record',found,rfl,rfl⟩
  | @admitted id' e' old new found' _ _ schedules =>
    refine ⟨none,by simp,?_⟩
    intro id record' found
    rw [schedules,Table.get_put] at found
    split at found
    · rename_i same
      cases Option.some.inj found
      exact .inl ⟨old,same ▸ found',rfl,rfl⟩
    · exact .inl ⟨record',found,rfl,rfl⟩

theorem Tidy.step (tidy : Tidy s) (step : Rewrites s s') : Tidy s' := by
  obtain ⟨new,drawn,rows⟩ := step.row
  obtain ⟨admitted,issued,entries⟩ := step.origin
  have grows := step.grows
  refine ⟨fun {id record} found => ?_,fun {id record} found => ?_,fun {id id' record record'} found found' same => ?_,
    fun {credential e entry} known => ?_,fun {credential credential' e e' entry entry'} known known' same => ?_⟩
  · rcases rows found with ⟨old,before,sameId,_⟩ | ⟨_,sameId,_⟩
    · exact sameId.trans (tidy.keyed before)
    · exact sameId
  · rcases rows found with ⟨old,before,_,sameCredential⟩ | ⟨fresh,_,credential⟩
    · obtain ⟨n,less,named⟩ := tidy.drawn before
      exact ⟨n,by omega,sameCredential.trans named⟩
    · exact ⟨s.fresh,drawn (by simp [fresh]),credential⟩
  · rcases rows found with ⟨old,before,_,named⟩ | ⟨fresh,_,named⟩ <;>
      rcases rows found' with ⟨old',before',_,named'⟩ | ⟨fresh',_,named'⟩
    · exact tidy.unique before before' (by rw [← named,← named',same])
    · obtain ⟨n,less,credential⟩ := tidy.drawn before
      rw [named,named',credential] at same
      cases same
      omega
    · obtain ⟨n,less,credential⟩ := tidy.drawn before'
      rw [named,named',credential] at same
      cases same
      omega
    · exact Option.some.inj (fresh.symm.trans fresh')
  · rcases entries known with ⟨old,before,token⟩ | ⟨fresh,token⟩
    · rw [← token]
      exact Nat.lt_of_lt_of_le (tidy.tokens before) grows
    · rw [token]
      exact issued (by simp [fresh])
  · rcases entries known with ⟨old,before,token⟩ | ⟨fresh,token⟩ <;>
      rcases entries known' with ⟨old',before',token'⟩ | ⟨fresh',token'⟩
    · exact tidy.apart before before' (token.trans (same.trans token'.symm))
    · exact (Nat.lt_irrefl _ (token.trans (same.trans token') ▸ tidy.tokens before)).elim
    · exact (Nat.lt_irrefl _ (token'.trans (same.symm.trans token) ▸ tidy.tokens before')).elim
    · cases Option.some.inj (fresh.symm.trans fresh')
      exact ⟨rfl,rfl⟩

end keeping

end Neurobro.Schedules
