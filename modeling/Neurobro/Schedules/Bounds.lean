import Neurobro.Coop.Histories
import Neurobro.Coop.Runs
import Neurobro.Schedules.Changes

/-! The authority of schedule executions over whole runs. A token is drawn once for an
execution and stays stored with it; the one completion that records the result first is
the only one that may call back. -/
namespace Neurobro.Schedules

open Coop
open Jobs (ToolContext)

variable {o : Options} {i : Nat}

/-! ## What a history shows -/

/-- The token was handed out for this execution. -/
def hands (credential : Credential) (e : String) (token : Token) : Event (coordinator o) → Prop
  | .act _ (.admitExecution c _ x) r => r = .ok token ∧ c = credential ∧ x = e
  | _ => False

/-- The fiber was the first to record the execution's result. -/
def records (fiber : Nat) (credential : Credential) (e : String) : Event (coordinator o) → Prop
  | .act j (.recordResult c x _ _) r => r = .ok false ∧ c = credential ∧ x = e ∧ j = fiber
  | _ => False

def callsBack (token : Token) : Event (coordinator o) → Bool
  | .call _ (.onComplete _ _ t) => t = token
  | _ => false

/-- The fiber recorded the result of an execution with this token and run, and nobody
has called back for it. -/
def Mine (fiber : Nat) (token : Token) (runId : String) (c : Core (coordinator o)) : Prop :=
  ∃ credential e entry, c.Happened (records fiber credential e) ∧ Entry c.state credential e entry ∧
    entry.token = token ∧ entry.runId = runId ∧ ¬c.Happened fun e => callsBack token e

/-- The store and the history agree. -/
structure Kept (c : Core (coordinator o)) : Prop where
  tidy : Tidy c.state
  handed : ∀ {credential e token}, c.Happened (hands credential e token) →
    ∃ entry, Entry c.state credential e entry ∧ entry.token = token
  recorded : ∀ {j credential e}, c.Happened (records j credential e) →
    ∃ entry, Entry c.state credential e entry ∧ entry.manifest.isSome = true
  recorder : ∀ {j j' credential e}, c.Happened (records j credential e) → c.Happened (records j' credential e) → j = j'
  once : ∀ token, c.AtMostOnce (callsBack token)
  called : ∀ {token}, (c.Happened fun e => callsBack token e) →
    ∃ j credential e entry, c.Happened (records j credential e) ∧ Entry c.state credential e entry ∧ entry.token = token

def bounds (o : Options) : Rules (coordinator o) where
  inv := Kept
  mayAct := fun _ _ _ => True
  mayCall := fun i q c => match q with
    | .onComplete context _ token => Mine i token context.runId c
    | _ => True

/-! ## Commits -/

theorem transaction_ok {α : Type} {s : State} {r : Except Err (α × State)} {a : α} (h : (transaction s r).1 = .ok a) :
    ∃ s', r = .ok (a,s') ∧ (transaction s r).2 = s' := by
  unfold transaction at *
  split at h
  · rename_i a' s'
    cases Except.ok.inj h
    exact ⟨s',rfl,rfl⟩
  · contradiction

theorem entry_put {s s' : State} {id : String} {record : ScheduleRecord} {credential : Credential} {e : String}
    {entry : Execution} (schedules : s'.schedules = s.schedules.put id (record.putExecution e entry))
    (named : record.credential = credential) : Entry s' credential e entry := by
  refine ⟨id,record.putExecution e entry,?_,named,Table.get_put_same _ _ _⟩
  rw [schedules,Table.get_put_same]

theorem handed_entry {s : State} (tidy : Tidy s) {credential : Credential} {job e : String} {token : Token}
    (h : (exec o (.admitExecution credential job e) s).1 = .ok token) :
    ∃ entry, Entry (exec o (.admitExecution credential job e) s).2 credential e entry ∧ entry.token = token := by
  obtain ⟨s',admitted,after⟩ := transaction_ok h
  have same : (exec o (.admitExecution credential job e) s).2 = s' := after
  rw [same]
  obtain ⟨record,found,_,hands⟩ := admit_ok admitted
  have stored := credentialRecord_stored tidy.keyed found
  have named := (credentialRecord_found found).2
  cases hands with
  | again known => exact ⟨_,⟨_,record,stored,named,known⟩,rfl⟩
  | fresh _ schedules =>
    exact ⟨_,entry_put schedules named,rfl⟩

/-- The first recording finds no manifest and leaves one. -/
theorem recorded_entry {s : State} (tidy : Tidy s) {credential : Credential} {e runId : String} {body : Json}
    (h : (exec o (.recordResult credential e runId body) s).1 = .ok false) :
    (∃ entry, Entry s credential e entry ∧ entry.manifest = none) ∧
    ∃ entry, Entry (exec o (.recordResult credential e runId body) s).2 credential e entry ∧
      entry.manifest.isSome = true := by
  obtain ⟨s',result,after⟩ := transaction_ok h
  have same : (exec o (.recordResult credential e runId body) s).2 = s' := after
  rw [same]
  obtain ⟨latest,found,recording⟩ := record_ok result
  have stored := credentialRecord_stored tidy.keyed found
  have named := (credentialRecord_found found).2
  cases recording with
  | @recorded admitted new _ known unfinished _ finished schedules =>
    exact ⟨⟨admitted,⟨_,latest,stored,named,known⟩,unfinished⟩,new,entry_put schedules named,finished⟩

section acts

variable {c : Core (coordinator o)}

theorem act_entry (kept : Kept c) (cmd : Cmd) {entry : Execution}
    (known : Entry c.state credential e entry) :
    ∃ entry', Entry (c.act i cmd).state credential e entry' ∧ entry.Continues entry' :=
  (exec_rewrites kept.tidy.keyed cmd).entry known

theorem hands_act {token : Token}
    (h : hands (o := o) credential e token (.act i cmd (exec o cmd c.state).1)) :
    ∃ job, cmd = .admitExecution credential job e ∧ (exec o (.admitExecution credential job e) c.state).1 = .ok token := by
  cases cmd with
  | admitExecution credential' job e' =>
    obtain ⟨result,rfl,rfl⟩ := h
    exact ⟨job,rfl,result⟩
  | _ => cases h

theorem records_act
    (h : records (o := o) j credential e (.act i cmd (exec o cmd c.state).1)) :
    i = j ∧ ∃ runId body, cmd = .recordResult credential e runId body ∧
      (exec o (.recordResult credential e runId body) c.state).1 = .ok false := by
  cases cmd with
  | recordResult credential' e' runId body =>
    obtain ⟨result,rfl,rfl,rfl⟩ := h
    exact ⟨rfl,runId,body,rfl,result⟩
  | _ => cases h

/-- What was recorded once is not recorded first again. -/
theorem Kept.unrecorded (kept : Kept c) {body : Json}
    (h : (exec o (.recordResult credential e runId body) c.state).1 = .ok false) (j : Nat) :
    ¬c.Happened (records j credential e) := by
  intro happened
  obtain ⟨⟨entry,known,unfinished⟩,_⟩ := recorded_entry kept.tidy h
  obtain ⟨entry',known',finished⟩ := kept.recorded happened
  cases kept.tidy.entry_unique known known'
  simp [unfinished] at finished

theorem Kept.act (kept : Kept c) (cmd : Cmd) : Kept (c.act i cmd) := by
  have mark := c.records_act i cmd
  refine ⟨kept.tidy.step (exec_rewrites kept.tidy.keyed cmd),?_,?_,?_,fun token => ?_,?_⟩
  · intro credential e token happened
    rcases (Core.happened_records mark).mp happened with new | old
    · obtain ⟨job,rfl,result⟩ := hands_act new
      exact handed_entry kept.tidy result
    · obtain ⟨entry,known,same⟩ := kept.handed old
      obtain ⟨entry',known',goes⟩ := act_entry kept cmd known
      exact ⟨entry',known',goes.token.trans same⟩
  · intro j credential e happened
    rcases (Core.happened_records mark).mp happened with new | old
    · obtain ⟨_,runId,body,rfl,result⟩ := records_act new
      exact (recorded_entry kept.tidy result).2
    · obtain ⟨entry,known,finished⟩ := kept.recorded old
      obtain ⟨entry',known',goes⟩ := act_entry kept cmd known
      exact ⟨entry',known',goes.manifest finished⟩
  · intro j j' credential e happened happened'
    rcases (Core.happened_records mark).mp happened with new | old <;>
      rcases (Core.happened_records mark).mp happened' with new' | old'
    · exact (records_act new).1.symm.trans (records_act new').1
    · obtain ⟨_,runId,body,rfl,result⟩ := records_act new
      exact (kept.unrecorded result j' old').elim
    · obtain ⟨_,runId,body,rfl,result⟩ := records_act new'
      exact (kept.unrecorded result j old).elim
    · exact kept.recorder old old'
  · apply (kept.once token).records mark
    intro no
    cases no
  · intro token happened
    rcases (Core.happened_records mark).mp happened with new | old
    · cases new
    · obtain ⟨j,credential,e,entry,recorded,known,same⟩ := kept.called old
      obtain ⟨entry',known',goes⟩ := act_entry kept cmd known
      exact ⟨j,credential,e,entry',recorded.records mark,known',goes.token.trans same⟩

/-- What leaves the schedules alone keeps the agreement; a callback must be one's own. -/
theorem Kept.silent (kept : Kept c) (mark : c.Records c' x)
    (schedules : c'.state.schedules = c.state.schedules) (fresh : c'.state.fresh = c.state.fresh)
    (noHand : ∀ credential e token, ¬hands credential e token x) (noRecord : ∀ j credential e, ¬records j credential e x)
    (own : ∀ token, callsBack token x = true → ∃ j runId, Mine j token runId c) : Kept c' := by
  have step : Rewrites c.state c'.state := .same schedules fresh
  have same : ∀ {credential e entry}, Entry c.state credential e entry → Entry c'.state credential e entry := by
    rintro credential e entry ⟨id,record,found,rest⟩
    exact ⟨id,record,schedules ▸ found,rest⟩
  have before : ∀ {j credential e}, c'.Happened (records j credential e) → c.Happened (records j credential e) :=
    fun happened => ((Core.happened_records mark).mp happened).resolve_left (noRecord _ _ _)
  refine ⟨kept.tidy.step step,?_,?_,?_,fun token => ?_,?_⟩
  · intro credential e token happened
    have old := ((Core.happened_records mark).mp happened).resolve_left (noHand _ _ _)
    obtain ⟨entry,known,token⟩ := kept.handed old
    exact ⟨entry,same known,token⟩
  · intro j credential e happened
    obtain ⟨entry,known,finished⟩ := kept.recorded (before happened)
    exact ⟨entry,same known,finished⟩
  · intro j j' credential e happened happened'
    exact kept.recorder (before happened) (before happened')
  · apply (kept.once token).records mark
    intro calls
    obtain ⟨j,runId,_,_,_,_,_,_,_,uncalled⟩ := own token calls
    exact uncalled
  · intro token happened
    rcases (Core.happened_records mark).mp happened with new | old
    · obtain ⟨j,runId,credential,e,entry,recorded,known,sameToken,_⟩ := own token new
      exact ⟨j,credential,e,entry,recorded.records mark,same known,sameToken⟩
    · obtain ⟨j,credential,e,entry,recorded,known,sameToken⟩ := kept.called old
      exact ⟨j,credential,e,entry,recorded.records mark,same known,sameToken⟩

end acts

theorem bounds_sound (o : Options) : (bounds o).Sound where
  move := by
    intro who c c' move
    cases move with
    | @act c i cmd inv may => exact inv.act cmd
    | @call c i q inv may =>
      apply inv.silent (c.records_call i q) rfl rfl (fun _ _ _ no => no) fun _ _ _ no => no
      intro token calls
      cases q with
      | onComplete context manifest token' =>
        have same : token' = token := by simpa [callsBack] using calls
        exact ⟨i,_,same ▸ may⟩
      | _ => cases calls
    | @reply c i q r inv =>
      exact inv.silent (c.records_reply i q r) rfl rfl (fun _ _ _ no => no) (fun _ _ _ no => no) fun _ no => by cases no
    | @shock c x inv =>
      cases x <;> exact inv.silent (c.records_shock _) rfl rfl (fun _ _ _ no => no) (fun _ _ _ no => no) fun _ no => by cases no
  crash := fun {c} inv => inv.silent c.records_crash rfl rfl (fun _ _ _ no => no) (fun _ _ _ no => no) fun _ no => by cases no

/-! ## The operations -/

section walks

variable {α : Type}

theorem untaken : ¬(bounds o).taken i := fun no => no

theorem calm_commit (cmd : Cmd) : Quiet (bounds o) (commit cmd : M o cmd.Result) :=
  .act (bounds_sound o) fun _ _ _ => trivial

theorem calm_fetch (r : Request) (timeoutMs : Nat) : Quiet (bounds o) (request r timeoutMs : M o Json) :=
  .bind (.call (bounds_sound o) fun _ _ _ => trivial) fun _ => .bind (.lift _) fun _ => .lift _

theorem calm_request (r : Request) (timeoutMs : Nat) :
    Quiet (bounds o) (Async.await (request r timeoutMs : M o Json)) := .await (bounds_sound o) (calm_fetch r timeoutMs)

theorem calm_serial {key : String} {operation : M o α} (h : Quiet (bounds o) operation) :
    Quiet (bounds o) (serial key operation) :=
  .bind (.call (bounds_sound o) fun _ _ _ => trivial) fun _ => .await (bounds_sound o) h

theorem calm_create (context : ToolContext) (input : ScheduleSpec) :
    Quiet (bounds o) (create context input : M o ScheduleRecord) := by
  refine .bind (.lift _) fun spec => calm_serial ?_
  refine Quiet.bind (calm_commit _) fun _ => .bind (.lift _) fun record => .ite (.pure _) ?_
  refine .bind (calm_request _ _) fun response => .bind (.lift _) fun jobId => ?_
  exact Quiet.bind (calm_commit _) fun _ => .bind (.lift _) fun activated => .bind (.check _) fun _ => .pure _

theorem calm_inspect (context : ToolContext) (id : String) :
    Quiet (bounds o) (inspect context id : M o (ScheduleRecord × Json)) :=
  .bind (.lift _) fun _ => .bind (.check _) fun _ => .bind (calm_request _ _) fun _ =>
    .bind (.check _) fun _ => .pure _

theorem calm_control (context : ToolContext) (id : String) (action : Control) :
    Quiet (bounds o) (control context id action : M o ScheduleRecord) := by
  refine .bind (.lift _) fun id => calm_serial ?_
  refine Quiet.bind (calm_commit _) fun _ => .bind (.lift _) fun job => .bind (calm_request _ _) fun _ => ?_
  exact Quiet.bind (calm_commit _) fun _ => .bind (.lift _) fun settled => .bind (.check _) fun _ => .pure _

theorem calm_orElse {m handler : M o α} (h : Quiet (bounds o) m) (handled : Quiet (bounds o) handler) :
    Quiet (bounds o) (orElse m handler) := by
  refine .bind (.settle h) fun result => ?_
  cases result with
  | ok a => exact .pure a
  | error e => exact handled

theorem calm_findJob (record : ScheduleRecord) (id : String) (expected : Option String) :
    Quiet (bounds o) (findJob record id expected : M o CleanupProgress) := by
  refine .ite (.pure _) (calm_orElse ?_ (.pure _))
  refine .bind (calm_request _ _) fun found => .bind (.lift _) fun looked => ?_
  cases looked with
  | none => exact .pure _
  | some discovered => exact Quiet.bind (calm_commit _) fun _ => .bind (.lift _) fun _ => .pure _

theorem calm_cleanUp (p : CleanupProgress) : Quiet (bounds o) (cleanUp p : M o CleanupProgress) := by
  unfold cleanUp
  split
  · exact .pure _
  · exact .ite (.pure _) (calm_orElse (.bind (calm_request _ _) fun _ => .pure _) (.pure _))

theorem calm_cancelFromHost (input : HostCancellationInput) :
    Quiet (bounds o) (cancelFromHost input : M o ScheduleRecord) := by
  refine .bind (.lift _) fun input => .bind (.check _) fun id => calm_serial ?_
  refine Quiet.bind (calm_commit _) fun _ => .bind (.lift _) fun record => .ite (.pure _) ?_
  refine .bind (calm_findJob _ _ _) fun found => .bind (calm_cleanUp _) fun cleaned => ?_
  exact .bind (calm_commit _) fun _ => .lift _

theorem calm_restore (id : String) (deadline : Nat) : Quiet (bounds o) (restore id deadline) := by
  have quarantine : ∀ state reason, Quiet (bounds o) (do orThrow (← commit (.saveBinding id state reason))) :=
    fun _ _ => .bind (calm_commit _) fun _ => .lift _
  refine calm_serial (.bind (.check _) fun record => .ite (.pure ()) ?_)
  refine .bind (.settle (.check _)) fun scope => ?_
  cases scope with
  | error e => exact .pure ()
  | ok _ =>
    refine Quiet.bind (calm_commit _) fun _ => .bind (.lift _) fun _ => .bind (.look _) fun now => .ite (quarantine _ _) ?_
    refine calm_orElse (.bind (calm_request _ _) fun result => .ite (.lift _) ?_) (quarantine _ _)
    exact .bind (.check _) fun _ => quarantine _ _

theorem calm_restoreBindings : Quiet (bounds o) (restoreBindings : M o Unit) := by
  refine .bind (.look _) fun records => .bind (.look _) fun now => ?_
  refine .bind (.gather fun record _ => .fork (bounds_sound o) (calm_restore _ _)) fun fibers => ?_
  exact .each fun fiber _ => .join (bounds_sound o) fiber

theorem calm_admitRequest (credential : Credential) (input : Json) :
    Quiet (bounds o) (admitRequest credential input : M o Token) :=
  .bind (.lift _) fun _ => .bind (calm_commit _) fun _ => .lift _

/-- The execution is stored with this token and run. -/
def Known (credential : Credential) (e : String) (token : Token) (runId : String) (c : Core (coordinator o)) : Prop :=
  ∃ entry, Entry c.state credential e entry ∧ entry.token = token ∧ entry.runId = runId

theorem known_lasting (credential : Credential) (e : String) (token : Token) (runId : String) :
    Lasting (bounds o) (Known credential e token runId) := by
  rintro who c c' move ⟨entry,known,sameToken,sameRun⟩
  cases move with
  | @act c i cmd inv _ =>
    obtain ⟨entry',known',goes⟩ := act_entry inv cmd known
    exact ⟨entry',known',goes.token.trans sameToken,goes.runId.trans sameRun⟩
  | call | reply => exact ⟨entry,known,sameToken,sameRun⟩
  | shock x => cases x <;> exact ⟨entry,known,sameToken,sameRun⟩

theorem admitted_known {job e : String} (h : s.admitted o credential job e = .ok a) : Entry s credential e a.entry:= by
  obtain ⟨record,found,h⟩ := bind_ok h
  obtain ⟨⟨id,stored⟩,named⟩ := credentialRecord_found found
  obtain ⟨entry,read,h⟩ := bind_ok h
  cases entry with
  | none => contradiction
  | some entry =>
    cases (guard_eq_ok.mp h).2
    exact ⟨id,record,stored,named,entry_found read⟩

/-- The fiber that records first owns the callback. -/
theorem mine_of_recorded {c : Core (coordinator o)} (kept : Kept c) {e runId run : String}
    {token : Token} {body : Json} (known : Known credential e token run c)
    (result : (exec o (.recordResult credential e runId body) c.state).1 = .ok false) :
    Mine i token run (c.act i (.recordResult credential e runId body)) := by
  have mark := c.records_act i (.recordResult credential e runId body)
  obtain ⟨entry,stored,sameToken,sameRun⟩ := known
  obtain ⟨entry',stored',goes⟩ := act_entry kept (.recordResult credential e runId body) stored
  refine ⟨credential,e,entry',?_,stored',goes.token.trans sameToken,goes.runId.trans sameRun,fun happened => ?_⟩
  · exact (Core.happened_records mark).mpr (.inl ⟨result,rfl,rfl,rfl⟩)
  · rcases (Core.happened_records mark).mp happened with new | old
    · cases new
    · obtain ⟨j,credential',e',other,recorded,others,otherToken⟩ := kept.called old
      obtain ⟨rfl,rfl⟩ := kept.tidy.apart others stored (otherToken.trans sameToken.symm)
      exact kept.unrecorded result j recorded

theorem recorded_spec (a : Admitted) (credential : Credential) (job e : String) (body : Json) :
    Triple (bounds o) i (Known credential e a.entry.token a.entry.runId) (recorded a credential job e body)
      (onOk fun replayed c => replayed = false → Mine i a.entry.token a.entry.runId c) := by
  have lasting := known_lasting (o := o) credential e a.entry.token a.entry.runId
  have keeps : ∀ {β : Type} {m : M o β}, Quiet (bounds o) m → Triple (bounds o) i
      (Known credential e a.entry.token a.entry.runId) m fun _ => Known credential e a.entry.token a.entry.runId :=
    fun quiet => quiet.keeps untaken lasting
  refine .bind (keeps (calm_request _ _)) (fun response => ?_) fun _ _ _ _ => trivial
  refine .bind (keeps (.lift _)) (fun native => ?_) fun _ _ _ _ => trivial
  refine .bind (keeps (.lift _)) (fun _ => ?_) fun _ _ _ _ => trivial
  refine .bind (keeps (.check _)) (fun _ => ?_) fun _ _ _ _ => trivial
  refine .bind (Q := onOk fun result c => result = .ok false → Mine i a.entry.token a.entry.runId c)
    (.act (bounds_sound o) (fun _ _ _ => trivial) fun c inv known _ => ?_) (fun result => .lift fun c _ mine => ?_)
    fun _ _ _ _ => trivial
  · exact fun result => mine_of_recorded inv known result
  · cases result with
    | error e => trivial
    | ok replayed => exact fun first => mine (by rw [first])

theorem callBack_spec (a : Admitted) (credential : Credential) (e : String) (body : Json) :
    Triple (bounds o) i (Mine i a.entry.token a.entry.runId) (callBack a credential e body) fun _ _ => True := by
  refine .seq (Q := fun _ => Mine i a.entry.token a.entry.runId) (.check fun _ _ mine => mine) fun _ => ?_
  exact .seq (Q := fun _ _ => True) (.call (bounds_sound o) .top (fun _ _ mine => mine) (fun _ _ _ => trivial)
    fun _ _ _ _ => trivial) fun answer => .lift fun _ _ _ => trivial

theorem dispose_spec (a : Admitted) (credential : Credential) (e : String) (body : Json) (replayed : Bool) :
    Triple (bounds o) i (fun c => replayed = false → Mine i a.entry.token a.entry.runId c)
      (dispose a credential e body replayed) fun _ _ => True := by
  have finish : ∀ cmd : Cmd, (r : cmd.Result → Except Err Unit) → Quiet (bounds o) (do orThrow (r (← commit cmd))) :=
    fun cmd r => .bind (calm_commit cmd) fun _ => .lift _
  refine .ite (fun _ => (finish (.withdrawCallback a.record.id e) id).triple untaken) fun first => ?_
  refine .ite (fun _ => ?_) fun _ => .pure fun _ _ _ => trivial
  have mine : replayed = false := Bool.eq_false_iff.mpr first
  refine .seq (Q := fun _ => Mine i a.entry.token a.entry.runId) (.check fun _ _ owns => owns mine) fun disposition => ?_
  refine .ite (fun _ => ?_) fun _ => .pure fun _ _ _ => trivial
  refine .seq (Q := fun _ _ => True) (.settle (callBack_spec a credential e body)) fun outcome => ?_
  exact (finish (.finishCallback a.record.id e (callbackState outcome)) id).triple untaken

theorem calm_complete (credential : Credential) (input : Json) :
    Quiet (bounds o) (complete credential input : M o ScheduleCompletion) := by
  refine .bind (.lift _) fun body => .bind (.lift _) fun job => .bind (.lift _) fun e => calm_serial fun i _ => ?_
  refine .seq (Q := onOk fun a => Known credential e a.entry.token a.entry.runId) (.check fun c _ _ => ?_) fun a => ?_
  · cases found : c.state.admitted o credential job e with
    | error err => trivial
    | ok a => exact ⟨a.entry,admitted_known found,rfl,rfl⟩
  refine .seq (recorded_spec a credential job e body) fun replayed => ?_
  refine .seq (dispose_spec a credential e body replayed) fun _ => ?_
  exact .seq (Q := fun _ _ => True) (.check fun _ _ _ => trivial) fun callback => .pure fun _ _ _ => trivial

theorem calm_operation (op : Op) : Quiet (bounds o) (operation o op) := by
  have discarded : ∀ {β : Type} {m : M o β}, Quiet (bounds o) m → Quiet (bounds o) (discard m) :=
    fun quiet => .bind quiet fun _ => .pure ()
  cases op with
  | create context input => exact discarded (calm_create context input)
  | inspect context id => exact discarded (calm_inspect context id)
  | control context id action => exact discarded (calm_control context id action)
  | cancelFromHost input => exact discarded (calm_cancelFromHost input)
  | restoreBindings => exact calm_restoreBindings
  | admitRequest credential input => exact discarded (calm_admitRequest credential input)
  | complete credential input => exact discarded (calm_complete credential input)

end walks

/-! ## Every run -/

theorem body_safe (op : Op) (i : Nat) (c : Core (coordinator o)) (free : ¬(bounds o).taken i)
    (inv : (bounds o).inv c) : Safe (bounds o) i (body o op) c := (calm_operation op i free).safe inv trivial

theorem boot_kept (policy : Policy) (now : Nat) : Kept (o := o) ⟨boot policy now,[]⟩ := by
  have empty : ∀ {id record}, (boot policy now).schedules.get id = some record → False := by
    intro id record found
    rw [show (boot policy now).schedules = ∅ from rfl,Table.get_empty] at found
    cases found
  have none : ∀ {credential e entry}, Entry (boot policy now) credential e entry → False :=
    fun ⟨_,_,found,_⟩ => empty found
  have nothing : ∀ p, ¬(⟨boot policy now,[]⟩ : Core (coordinator o)).Happened p := fun _ =>
    Core.not_happened_initial _
  refine ⟨⟨fun found => (empty found).elim,fun found => (empty found).elim,fun found => (empty found).elim,
    fun known => (none known).elim,fun known => (none known).elim⟩,?_,?_,?_,fun _ => Nat.zero_le _,?_⟩
  · exact fun happened => (nothing _ happened).elim
  · exact fun happened => (nothing _ happened).elim
  · exact fun happened => (nothing _ happened).elim
  · exact fun happened => (nothing _ happened).elim

theorem Reachable.governed {w : World (coordinator o)} (reachable : Reachable o w) : w.Governed (bounds o) := by
  obtain ⟨policy,now,run⟩ := reachable
  exact World.Governed.leads (bounds_sound o) body_safe
    (World.initial_governed (boot_kept policy now) fun _ => id) run

/-- A revoked execution stays one through everything that can happen. -/
theorem revoked_stays {ok : Cmd → Core (coordinator o) → Prop} {c c' : Core (coordinator o)} {credential : Credential}
    {e : String} (run : Changes (bounds o) ok c c')
    (revoked : ∃ entry, Entry c.state credential e entry ∧ entry.revoked = true) :
    ∃ entry, Entry c'.state credential e entry ∧ entry.revoked = true := by
  apply run.keeps (A := fun c => ∃ entry, Entry c.state credential e entry ∧ entry.revoked = true) ?_ revoked
  rintro c c' change ⟨entry,known,withdrawn⟩
  cases change with
  | act i cmd inv _ _ =>
    obtain ⟨entry',known',goes⟩ := act_entry inv cmd known
    exact ⟨entry',known',goes.revoked withdrawn⟩
  | call | reply | crash => exact ⟨entry,known,withdrawn⟩
  | shock x => cases x <;> exact ⟨entry,known,withdrawn⟩

/-- An admission reads the entry it would hand out. -/
theorem admit_live {s : State} (tidy : Tidy s) {credential : Credential} {job e : String} {token : Token}
    {entry : Execution} (known : Entry s credential e entry)
    (h : (exec o (.admitExecution credential job e) s).1 = .ok token) : entry.revoked = false := by
  obtain ⟨s',admitted,_⟩ := transaction_ok h
  obtain ⟨record,found,_,hands⟩ := admit_ok admitted
  have stored := credentialRecord_stored tidy.keyed found
  have named := (credentialRecord_found found).2
  obtain ⟨id,record',found',named',entered⟩ := known
  obtain rfl := tidy.unique stored found' (named.trans named'.symm)
  cases stored.symm.trans found'
  cases hands with
  | again held _ live =>
    cases held.symm.trans entered
    exact live
  | fresh absent =>
    cases absent.symm.trans entered

/-- What executions may count on in a world: `issued` is about the admission that commits
next, `revoked` about every world that follows. -/
structure Bounded (o : Options) (w : World (coordinator o)) : Prop where
  issued : ∀ {i credential job e token}, w.about = some (i,.admitExecution credential job e) →
    (exec o (.admitExecution credential job e) w.core.state).1 = .ok token →
    ∃ id record, w.core.state.schedules.get id = some record ∧ record.credential = credential ∧ record.Admits job
  single : ∀ {credential e token token'}, w.core.Happened (hands credential e token) →
    w.core.Happened (hands credential e token') → token = token'
  distinct : ∀ {credential credential' e e' token}, w.core.Happened (hands credential e token) →
    w.core.Happened (hands credential' e' token) → credential = credential' ∧ e = e'
  revoked : ∀ {credential e entry}, Entry w.core.state credential e entry → entry.revoked = true →
    ∀ {w' i job}, World.Leads (body o) w w' → w'.about = some (i,.admitExecution credential job e) →
    ∀ token, (exec o (.admitExecution credential job e) w'.core.state).1 ≠ .ok token
  callback : ∀ {credential e entry}, Entry w.core.state credential e entry →
    w.core.AtMostOnce (callsBack entry.token)
  owned : ∀ {token}, (w.core.Happened fun e => callsBack token e) →
    ∃ credential e entry, Entry w.core.state credential e entry ∧ entry.token = token

/-- Over every run: a token is handed out only by an active schedule without a pending
control and with a known binding, each execution gets one, a revoked execution gets none
ever after, and its completion is called back at most once. -/
theorem executions_bounded {w : World (coordinator o)} (reachable : Reachable o w) : Bounded o w := by
  have governed := reachable.governed
  have kept := governed.inv
  refine ⟨fun {i credential job e token} _ result => ?_,fun {credential e token token'} first second => ?_,
    fun {credential credential' e e' token} first second => ?_,fun {credential e entry} known withdrawn => ?_,
    fun known => kept.once _,fun {token} called => ?_⟩
  · obtain ⟨s',admitted,_⟩ := transaction_ok result
    obtain ⟨record,found,admits,_⟩ := admit_ok admitted
    exact ⟨_,record,credentialRecord_stored kept.tidy.keyed found,(credentialRecord_found found).2,admits⟩
  · obtain ⟨entry,known,same⟩ := kept.handed first
    obtain ⟨entry',known',same'⟩ := kept.handed second
    rw [← same,← same',kept.tidy.entry_unique known known']
  · obtain ⟨entry,known,same⟩ := kept.handed first
    obtain ⟨entry',known',same'⟩ := kept.handed second
    exact kept.tidy.apart known known' (same.trans same'.symm)
  · intro w' i job run _ token result
    obtain ⟨governed',changes⟩ := governed.leadsIf (bounds_sound o) body_safe run.always
    obtain ⟨entry',known',withdrawn'⟩ := revoked_stays changes ⟨entry,known,withdrawn⟩
    have live := admit_live governed'.inv.tidy known' result
    simp [withdrawn'] at live
  · obtain ⟨j,credential,e,entry,_,known,same⟩ := kept.called called
    exact ⟨credential,e,entry,known,same⟩

def Host.plain : Host where
  sha256 := id
  localeCompare := Jobs.Host.plain.localeCompare
  numberText := fun _ => ""

def Options.plain : Options where
  host := .plain
  rank := fun _ => 0
  onComplete := true

def Policy.open : Policy where
  validateScope := fun _ => .ok ()
  issueToolContext := fun _ => .ok ()
  resolveToolContext := fun _ => .ok ()
  prepareExecution := fun _ => .ok ()

def finished : Json :=
  .obj [("job_id",.str "j"),("execution_id",.str "e"),("task_id",.str "cron:j:e"),("outcome",.str "completed"),
    ("output_file",.null),("output_sha256",.null)]

/-- The native side creates job `j` and answers with the finished manifest. -/
def native : Request → Json
  | .createJob _ _ _ _ _ => .obj [("ok",.bool true),("job",.obj [("id",.str "j")])]
  | _ => .obj [("ok",.bool true),("manifest",finished)]

def answered (fiber : Nat) : Choice (coordinator .plain) Op :=
  .resume fiber fun
    | .turn _ => some ()
    | .fetch request _ => some (.ok ⟨true,2,.ok (native request)⟩)
    | .onComplete _ _ _ => some (.ok ())

/-- A schedule is created, an execution is admitted twice and completed twice. -/
def completedTwice : List (Choice (coordinator .plain) Op) :=
  let entry : Json := .obj [("job_id",.str "j"),("execution_id",.str "e"),("task_id",.str "cron:j:e")]
  [.invoke (.create ⟨⟨"task",1,"grant",1⟩,"r"⟩ ⟨"daily","Daily","0 9 * * *","Report"⟩),answered 0,answered 0,
    .invoke (.admitRequest (.issued 0) entry),.invoke (.admitRequest (.issued 0) entry),
    .invoke (.complete (.issued 0) finished),answered 3,answered 3,answered 3,
    .invoke (.complete (.issued 0) finished),answered 4,answered 4]

theorem executions_bounded_completed : ∃ w : World (coordinator .plain), Reachable .plain w ∧
    w.core.trace.countP (callsBack 1) = 1 ∧ Bounded .plain w := by
  have played : (World.play (body .plain) 200 200 completedTwice (.initial (boot .open 0))).any fun w =>
      decide (w.core.trace.countP (callsBack 1) = 1) := by decide +kernel
  obtain ⟨w,run,once⟩ := World.play_any played
  have reachable : Reachable .plain w := ⟨.open,0,run⟩
  exact ⟨w,reachable,of_decide_eq_true once,executions_bounded reachable⟩

end Neurobro.Schedules
