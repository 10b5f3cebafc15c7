import Neurobro.Coop.Answers
import Neurobro.Agent.OperationsConduct
import Neurobro.Agent.Walk

/-! Terminal snapshots: which commits can replace the record of a run, and the answers
that come too late for a run whose end is already on record. -/
namespace Neurobro.Agent

open Coop

variable {o : Options}

/-! ## Marks in the history -/

/-- A terminal snapshot of this revision's run is recorded. -/
def ends (key : AdmissionKey) : Event (agent o) → Prop
  | .act _ (Cmd.putRun k s) _ => k = key ∧ terminal s.state
  | _ => False

def records (key : AdmissionKey) : Event (agent o) → Prop
  | .act _ (Cmd.putRun k _) _ => k = key
  | _ => False

/-- The answer is an accepted snapshot of the very run, and a terminal one. -/
def Final (binding : RunBinding) : Except Err RunSnapshot → Prop
  | .ok s => s.binding.runId = binding.runId ∧
      checkSnapshot s binding.taskId binding.intentRevision binding.idempotencyKey = .ok () ∧ terminal s.state
  | .error _ => False

/-- An inspection or a cancellation is answered with anything but the run's end: a live
state, an error, or a snapshot that is refused. -/
def spoils (key : AdmissionKey) : Event (agent o) → Prop
  | .reply _ (Call.inspect binding) r => binding.admissionKey = key ∧ ¬Final binding r
  | .reply _ (Call.cancel binding) r => binding.admissionKey = key ∧ ¬Final binding r
  | _ => False

def Call.submission (key : AdmissionKey) : Call → Bool
  | .submit input => (input.taskId,input.intentRevision) = key
  | _ => false

/-- No such answer arrives once the end of the run is on record. -/
def Prompt (c : Instant o) : Prop := ∀ key, ¬c.Followed (ends key) (spoils key)

/-- The last thing that happened. -/
def Latest (p : Event (agent o) → Prop) (c : Instant o) : Prop := ∃ e rest, c.trace = e :: rest ∧ p e

def Stored (key : AdmissionKey) (c : Instant o) : Prop := (c.state.store.runs.get key).isSome

/-! ## The rules -/

structure Kept (c : Instant o) : Prop where
  named : ∀ key run, c.state.store.runs.get key = some run → run.binding.admissionKey = key
  ended : ∀ key run, c.state.store.runs.get key = some run → terminal run.state → c.Happened (ends key)
  answered : ∀ key, Stored key c → c.Followed (fun e => tells (Call.submission key) e) (records key)

/-- A run is recorded with its end, from an answer that spoils, or from its submission. -/
def MayRecord (key : AdmissionKey) (snapshot : RunSnapshot) (c : Instant o) : Prop :=
  snapshot.binding.admissionKey = key ∧
    (Stored key c ∧ (terminal snapshot.state ∨ Latest (spoils key) c) ∨
      Latest (fun e => tells (Call.submission key) e) c)

def prompt (o : Options) : Rules (agent o) where
  inv := Kept
  mayAct _ cmd c := match cmd with
    | .putRun key snapshot => MayRecord key snapshot c
    | _ => True
  mayCall _ _ _ := True

section rules

variable {c c' : Instant o} {key : AdmissionKey}

theorem Latest.happened (latest : Latest p c) : c.Happened p := by
  obtain ⟨e,rest,top,holds⟩ := latest
  exact ⟨e,by simp [top],holds⟩

/-- A change that leaves the runs alone and adds an event leaves everything kept. -/
theorem Kept.extend (kept : Kept c) (records : c.Records c' e)
    (same : c'.state.store.runs = c.state.store.runs) : Kept c' := by
  refine ⟨fun key run found => kept.named key run (same ▸ found),fun key run found ended => ?_,fun key stored => ?_⟩
  · exact (kept.ended key run (same ▸ found) ended).records records
  · unfold Stored at stored
    rw [same] at stored
    exact (Core.followed_records records).mpr (.inr (kept.answered key stored))

theorem Kept.act (kept : Kept c) {i : Nat} {cmd : Cmd} (may : (prompt o).mayAct i cmd c) : Kept (c.act i cmd) := by
  have recorded := c.records_act i cmd
  rcases exec_runs o c.state cmd with same | ⟨key,snapshot,rfl,put⟩
  · exact kept.extend recorded same
  have read : ∀ k, (c.act i (.putRun key snapshot)).state.store.runs.get k =
      if k = key then some snapshot else c.state.store.runs.get k := fun k =>
    (congrArg (·.get k) put).trans (Table.get_put _ _ _ _)
  obtain ⟨named,origin⟩ := may
  refine ⟨fun k run found => ?_,fun k run found ended => ?_,fun k stored => ?_⟩
  · rw [read] at found
    by_cases here : k = key
    · rw [if_pos here] at found
      cases Option.some.inj found
      exact named.trans here.symm
    · rw [if_neg here] at found
      exact kept.named k run found
  · rw [read] at found
    by_cases here : k = key
    · rw [if_pos here] at found
      cases Option.some.inj found
      exact (Core.happened_records recorded).mpr (.inl ⟨here.symm,ended⟩)
    · rw [if_neg here] at found
      exact (kept.ended k run found ended).records recorded
  · by_cases here : k = key
    · subst here
      have told : c.Happened fun e => tells (Call.submission k) e := by
        rcases origin with ⟨known,_⟩ | latest
        · exact (kept.answered k known).happened
        · exact latest.happened
      exact (Core.followed_records recorded).mpr (.inl ⟨rfl,told⟩)
    · unfold Stored at stored
      rw [read,if_neg here] at stored
      exact (Core.followed_records recorded).mpr (.inr (kept.answered k stored))

theorem prompt_sound (o : Options) : (prompt o).Sound where
  move move := by
    cases move with
    | act kept may => exact kept.act may
    | call kept => exact kept.extend (Core.records_call _ _ _) rfl
    | reply q r kept => exact kept.extend (Core.records_reply _ _ q r) rfl
    | shock x kept => cases x <;> exact kept.extend (Core.records_shock _ _) rfl
  crash kept := kept.extend (Core.records_crash _) rfl

theorem stored_act (stored : Stored key c) : Stored key (c.act i cmd) := by
  unfold Stored at *
  rcases exec_runs o c.state cmd with same | ⟨k,snapshot,_,put⟩
  · exact (congrArg (fun t => (t.get key).isSome) same).trans stored
  · refine (congrArg (fun t => (t.get key).isSome) put).trans ?_
    rw [Table.get_put]
    split
    · rfl
    · exact stored

theorem stored_lasting (key : AdmissionKey) : Lasting (prompt o) (Stored key) := by
  intro who c c' move stored
  cases move with
  | act => exact stored_act stored
  | call => exact stored
  | reply => exact stored
  | shock x => cases x <;> exact stored

end rules

/-! ## The four programs that record runs -/

section programs

variable {i : Nat}

/-- What a fiber knows of a run it has listed. -/
def Listed (s : RunSnapshot) : Instant o → Prop := Stored s.binding.admissionKey

/-- The engine has just answered about a run on record. -/
def Heard (binding : RunBinding) (r : Except Err RunSnapshot) (c : Instant o) : Prop :=
  Stored binding.admissionKey c ∧ (Latest (spoils binding.admissionKey) c ∨ Final binding r)

/-- The error branches: the answer was not the run's end. -/
def Missed (key : AdmissionKey) (c : Instant o) : Prop := Stored key c ∧ Latest (spoils key) c

theorem heard_inspect (binding : RunBinding) : Triple (prompt o) i (Stored binding.admissionKey)
    (ask (.inspect binding)) (onResult (fun r => Heard binding r) fun _ => False) := by
  refine .call (prompt_sound o) (stored_lasting _).stable (fun _ _ _ => trivial) (fun _ _ stored => stored)
    fun c r _ stored => ⟨stored,?_⟩
  by_cases final : Final binding r
  · exact .inr final
  · exact .inl ⟨_,_,rfl,rfl,final⟩

theorem heard_cancel (binding : RunBinding) : Triple (prompt o) i (Stored binding.admissionKey)
    (ask (.cancel binding)) (onResult (fun r => Heard binding r) fun _ => False) := by
  refine .call (prompt_sound o) (stored_lasting _).stable (fun _ _ _ => trivial) (fun _ _ stored => stored)
    fun c r _ stored => ⟨stored,?_⟩
  by_cases final : Final binding r
  · exact .inr final
  · exact .inl ⟨_,_,rfl,rfl,final⟩

/-- Accepting the answer about a run; every refusal shows that it was not the end. -/
theorem accept_heard {binding : RunBinding} {α : Type} (updated : RunSnapshot) (wrong : Err) (a : α) :
    Triple (prompt o) i (Heard binding (.ok updated))
      (if updated.binding.runId ≠ binding.runId then refuse wrong else do
        acceptSnapshot updated binding.taskId binding.intentRevision binding.idempotencyKey
        pure a : M o α) (onResult (fun _ _ => True) (Missed binding.admissionKey)) := by
  refine .ite (fun other => ?_) fun _ => ?_
  · exact .lift fun c _ ⟨stored,heard⟩ => ⟨stored,heard.resolve_right fun final => other final.1⟩
  · refine .bind (Q := onResult (fun _ _ => True) (Missed binding.admissionKey)) ?_
      (fun _ => .pure fun _ _ _ => trivial) fun _ _ _ missed => missed
    refine .bind (Q := onResult (fun _ c => updated.binding.admissionKey = binding.admissionKey ∧
      Heard binding (.ok updated) c) (Missed binding.admissionKey)) (.lift fun c _ ⟨stored,heard⟩ => ?_)
      (fun _ => ?_) fun _ _ _ missed => missed
    · cases checked : checkSnapshot updated binding.taskId binding.intentRevision binding.idempotencyKey with
      | error e =>
        refine ⟨stored,heard.resolve_right fun final => ?_⟩
        cases checked.symm.trans final.2.1
      | ok _ => exact ⟨checkSnapshot_ok checked,stored,heard⟩
    · refine .act (prompt_sound o) (fun c _ ⟨named,stored,heard⟩ => ⟨named,.inl ⟨stored,?_⟩⟩) fun _ _ _ _ => trivial
      exact heard.elim .inr fun final => .inl final.2.2

theorem markUnknown_missed (s : RunSnapshot) (reason : String) :
    Triple (prompt o) i (Missed s.binding.admissionKey) (markUnknown s s.binding.taskId reason) fun _ _ => True := by
  refine .seq (Q := onOk fun _ => Missed s.binding.admissionKey) (.look fun _ _ missed => missed) fun now => ?_
  exact .act (prompt_sound o) (fun c _ missed => ⟨rfl,.inl ⟨missed.1,.inr missed.2⟩⟩) fun _ _ _ _ => trivial

/-- An answer that is an error is no end either. -/
theorem throw_heard {binding : RunBinding} (r : Except Err RunSnapshot) :
    Triple (prompt o) i (Heard binding r) (orThrow r)
      (onResult (fun updated => Heard binding (.ok updated)) (Missed binding.admissionKey)) := by
  refine .lift fun c _ ⟨stored,heard⟩ => ?_
  cases r with
  | ok updated => exact ⟨stored,heard⟩
  | error e => exact ⟨stored,heard.resolve_right id⟩

theorem cancelRun_heard (s : RunSnapshot) : Triple (prompt o) i (Listed s)
    (cancelRun s.binding s.binding.taskId s.binding.intentRevision s.binding.idempotencyKey)
    (onResult (fun _ _ => True) (Missed s.binding.admissionKey)) :=
  .bind (heard_cancel s.binding) (fun r => .bind (throw_heard r) (fun updated => accept_heard updated _ _)
    fun _ _ _ missed => missed) fun _ _ _ no => no.elim

theorem cancelListed_prompt (s : RunSnapshot) :
    Triple (prompt o) i (Listed s) (cancelListed s.binding.taskId s) fun _ _ => True := by
  refine .seq (Q := onOk (onResult (fun _ _ => True) (Missed s.binding.admissionKey)))
    (.settle ((cancelRun_heard s).post ?_)) fun r => ?_
  · intro r c _ known
    cases r with
    | ok _ => trivial
    | error _ => exact known
  · cases r with
    | ok _ => exact .pure fun _ _ _ => trivial
    | error e => exact markUnknown_missed s _

theorem inspectRun_prompt (s : RunSnapshot) : Triple (prompt o) i (Listed s) (inspectRun s) fun _ _ => True := by
  have inspected : Triple (prompt o) i (Listed s) (do
      let updated ← orThrow (← ask (.inspect s.binding))
      if updated.binding.runId ≠ s.binding.runId then
        refuse (.authority "Inspected engine run changed its registered binding")
      else acceptSnapshot updated s.binding.taskId s.binding.intentRevision s.binding.idempotencyKey : M o Unit)
      (onResult (fun _ _ => True) (Missed s.binding.admissionKey)) :=
    .bind (heard_inspect s.binding) (fun r => .bind (throw_heard r) (fun updated => accept_heard updated _ ())
      fun _ _ _ missed => missed) fun _ _ _ no => no.elim
  refine .seq (Q := onOk (onResult (fun _ _ => True) (Missed s.binding.admissionKey)))
    (.settle (inspected.post ?_)) fun r => ?_
  · intro r c _ known
    cases r with
    | ok _ => trivial
    | error _ => exact known
  · cases r with
    | ok _ => exact .pure fun _ _ _ => trivial
    | error e => exact markUnknown_missed s _

theorem mayAct_free (free : cmd.routine = true) : (prompt o).mayAct i cmd c := by
  cases cmd <;> trivial

/-- Commands that record no run keep what is known of one. -/
theorem commit_keeps {key : AdmissionKey} (free : ∀ c, (prompt o).mayAct i cmd c) :
    Triple (prompt o) i (Stored key) (commit cmd) (onOk fun _ => Stored key) :=
  .act (prompt_sound o) (fun c _ _ => free c) fun _ _ stored _ => stored_act stored

theorem checkSnapshot_fits {snapshot : RunSnapshot} {revision : Nat} {key : String}
    (h : checkSnapshot snapshot T revision key = .ok ()) : snapshot.binding.taskId = T ∧
      snapshot.binding.intentRevision = revision ∧ snapshot.binding.idempotencyKey = key := by
  unfold checkSnapshot at h
  simp only at h
  split at h
  · contradiction
  · rename_i fits
    simp only [not_or,not_not] at fits
    exact ⟨fits.1,fits.2.1,fits.2.2.1⟩

/-- The first record of a run comes from the answer to its submission. -/
theorem submitAndBind_prompt (intent : TaskIntent) (admission : Admission) (prepared : PreparedInput)
    (previous : Option RunSnapshot) : Triple (prompt o) i (fun _ => True)
      (submitAndBind intent admission (engineInput intent admission prepared previous)) fun _ _ => True := by
  let key := (intent.id,intent.revision)
  let Answered := Latest (o := o) fun e => tells (Call.submission key) e
  refine .seq (Q := onOk fun _ => Answered) (.call (prompt_sound o) .top (fun _ _ _ => trivial)
    (fun _ _ _ => trivial) fun c r _ _ => ⟨_,_,rfl,by simp [tells,Call.submission,engineInput,key]⟩) fun r => ?_
  refine .seq (Q := onOk fun _ => Answered) (.lift fun c _ answered => ?_) fun snapshot => ?_
  · cases r with
    | ok _ => exact answered
    | error _ => trivial
  have accepted : Triple (prompt o) i Answered (acceptSnapshot snapshot intent.id intent.revision admission.key)
      (onOk fun _ c => checkSnapshot snapshot intent.id intent.revision admission.key = .ok () ∧ Stored key c) := by
    refine .bind (Q := onOk fun _ c => checkSnapshot snapshot intent.id intent.revision admission.key = .ok () ∧
      Answered c) (.lift fun c _ answered => ?_) (fun _ => ?_) fun _ _ _ _ => trivial
    · cases checked : checkSnapshot snapshot intent.id intent.revision admission.key with
      | error e => trivial
      | ok _ => exact ⟨rfl,answered⟩
    · refine .act (prompt_sound o) (fun c _ known => ⟨checkSnapshot_ok known.1,.inr known.2⟩) ?_
      intro c _ known _
      exact ⟨known.1,by simp [Stored,Core.act,exec,key,Table.get_put_same]⟩
  refine .seq accepted fun _ => .assume fun checked => ?_
  have fits := checkSnapshot_fits checked
  have listed : ∀ c : Instant o, Stored key c → Listed snapshot c := by
    intro c stored
    unfold Listed
    rw [checkSnapshot_ok checked]
    exact stored
  have stopping := cancelRun_heard (o := o) (i := i) snapshot
  rw [fits.1,fits.2.1,fits.2.2] at stopping
  refine .seq (commit_keeps fun _ => trivial) fun _ => .seq (commit_keeps fun _ => trivial) fun bound => ?_
  cases bound with
  | ok _ => exact .pure fun _ _ _ => trivial
  | error e =>
    refine .ite (fun _ => .lift fun _ _ _ => trivial) fun _ => ?_
    have ignored : Triple (prompt o) i (Stored key)
        (cancelRun snapshot.binding intent.id intent.revision admission.key) fun _ _ => True :=
      stopping.weaken (fun c _ stored => listed c stored) fun _ _ _ _ => trivial
    exact .seq (Q := fun _ _ => True) (.settle ignored) fun _ => .pure fun _ _ _ => trivial

theorem prompt_walk (o : Options) : Walk (prompt o) Listed fun _ _ _ => True where
  sound := prompt_sound o
  act _ free _ := mayAct_free free
  ask _ _ := trivial
  lasting s := stored_lasting _
  owned _ _ _ _ _ _ _ := trivial
  drawn _ := trivial
  stored kept found := by
    have named := kept.named _ _ found
    refine ⟨named,?_⟩
    unfold Listed Stored
    rw [named,found]
    rfl
  inspect _ := inspectRun_prompt
  cancel _ := cancelListed_prompt
  stop _ s := (cancelRun_heard s).post fun _ _ _ _ => trivial
  submit _ := submitAndBind_prompt

end programs

/-! ## Runs -/

theorem prompt_safe (op : Op) (i : Nat) (c : Instant o) (_free : ¬(prompt o).taken i) (kept : (prompt o).inv c) :
    Safe (prompt o) i (body o op) c :=
  ((prompt_walk o).program (fun _ => trivial) op i).safe kept trivial

theorem boot_kept (o : Options) (now : Time) (policy : Policy) : Kept (o := o) ⟨State.boot now policy,[]⟩ := by
  constructor <;> simp [State.boot,Stored]

theorem Reachable.prompt (reachable : Reachable o w) : w.Governed (prompt o) := by
  obtain ⟨now,policy,run⟩ := reachable
  have boot : (World.initial (S := agent o) (State.boot now policy)).Governed (Agent.prompt o) :=
    World.initial_governed (boot_kept o now policy) fun _ taken => taken
  exact boot.leads (prompt_sound o) prompt_safe run

/-- The engine answers one submission once. -/
theorem Reachable.answered (reachable : Reachable o w) (key : AdmissionKey) :
    w.core.trace.countP (tells (Call.submission key)) ≤ 1 := by
  obtain ⟨now,policy,run⟩ := id reachable
  have asked : w.core.trace.countP (asks (Call.submission key)) = w.core.trace.countP (submits key) := by
    refine congrArg (fun f => w.core.trace.countP f) (funext fun e => ?_)
    cases e with
    | call i q => cases q <;> rfl
    | _ => rfl
  exact Nat.le_trans run.answered (asked ▸ reachable.orderly.submittedOnce key)

theorem Prompt.earlier (held : Prompt c') (grown : c.trace <:+ c'.trace) : Prompt c := by
  rintro key ⟨later,e,earlier,split,after,before⟩
  obtain ⟨new,longer⟩ := grown
  exact held key ⟨new ++ later,e,earlier,by rw [← longer,split,List.append_assoc],after,before⟩

def Terminal (key : AdmissionKey) (c : Instant o) : Prop :=
  ∃ run, c.state.store.runs.get key = some run ∧ terminal run.state

/-- One change keeps the end of a run on record. -/
theorem terminal_change {key : AdmissionKey} (kept : Kept c)
    (once : c.trace.countP (tells (Call.submission key)) ≤ 1) (held : Prompt c)
    (change : Change (prompt o) (fun _ _ => True) c c') (ended : Terminal key c) : Terminal key c' := by
  cases change with
  | act i cmd _ may _ =>
    obtain ⟨run,found,final⟩ := ended
    rcases exec_runs o c.state cmd with same | ⟨k,snapshot,rfl,put⟩
    · exact ⟨run,(congrArg (·.get key) same).trans found,final⟩
    have read := (congrArg (·.get key) put).trans (Table.get_put _ _ _ _)
    by_cases here : key = k
    · subst here
      obtain ⟨_,⟨_,ended | ⟨e,rest,top,spoils⟩⟩ | ⟨e,rest,top,tells⟩⟩ := may
      · exact ⟨snapshot,read.trans (if_pos rfl),ended⟩
      -- the late answer was given after the end had been recorded
      · obtain ⟨x,member,recorded⟩ := kept.ended key run found final
        rw [top] at member
        rcases List.mem_cons.mp member with same | before
        · subst same
          cases x <;> first | exact spoils.elim | exact recorded.elim
        · exact (held key ⟨[],e,rest,top,spoils,x,before,recorded⟩).elim
      -- a second answer to the one submission
      · have two := (kept.answered key (by simp [Stored,found])).two top tells fun recorded => by
          cases e <;> first | exact recorded.elim | cases tells
        omega
    · exact ⟨run,(read.trans (if_neg here)).trans found,final⟩
  | call | reply | crash => exact ended
  | shock x => cases x <;> exact ended

/-- Once the end of a run is on record, every later record of it is an end too, unless an
answer that is none arrives after it. -/
theorem terminal_stays {w w' : World (agent o)} {key : AdmissionKey} (reachable : Reachable o w)
    (run : World.Leads (body o) w w') (held : Prompt w'.core) (ended : Terminal key w.core) :
    Terminal key w'.core := by
  induction run with
  | refl => exact ended
  | @tail middle last before step ih =>
    obtain ⟨choice,stepped⟩ := step
    have there := reachable.leads before
    have earlier := held.earlier (World.step_trace stepped)
    rcases there.prompt.changed stepped with same | change
    · rw [same]
      exact ih earlier
    · exact terminal_change there.prompt.inv (there.answered key) earlier change (ih earlier)

/-! ## A late answer -/

instance (binding : RunBinding) : (r : Except Err RunSnapshot) → Decidable (Final binding r)
  | .ok s => inferInstanceAs (Decidable (s.binding.runId = binding.runId ∧
      checkSnapshot s binding.taskId binding.intentRevision binding.idempotencyKey = .ok () ∧ terminal s.state))
  | .error _ => inferInstanceAs (Decidable False)

/-- No answer that is not the end of its run. -/
def unspoilt : Event (agent o) → Bool
  | .reply _ (Call.inspect binding) r => decide (Final binding r)
  | .reply _ (Call.cancel binding) r => decide (Final binding r)
  | _ => true

theorem unspoilt_prompt (clear : c.trace.all unspoilt) : Prompt c := by
  rintro key ⟨later,e,earlier,split,spoilt,_⟩
  have plain : unspoilt e := List.all_eq_true.mp clear e (by simp [split])
  unfold spoils at spoilt
  split at spoilt
  · exact spoilt.2 (of_decide_eq_true plain)
  · exact spoilt.2 (of_decide_eq_true plain)
  · exact spoilt

theorem terminal_iff {key : AdmissionKey} : Terminal key c ↔ (c.state.store.runs.get key).any (terminal ·.state):=
  (Option.any_eq_true _ _).symm

/-- What the engine has made of a run by each moment of the history. -/
abbrev Engine (o : Options) := List (Event (agent o)) → RunBinding → RunState

/-- Terminal states are never left. -/
def Engine.Ends (engine : Engine o) : Prop :=
  ∀ earlier later binding, terminal (engine earlier binding) →
    engine (later ++ earlier) binding = engine earlier binding

/-- The moments since a fiber's last call. -/
def sinceCall (i : Nat) : List (Event (agent o)) → List (List (Event (agent o)))
  | [] => []
  | e :: earlier => (e :: earlier) :: match e with
    | .call j _ => if j = i then [] else sinceCall i earlier
    | _ => sinceCall i earlier

/-- Every answer about a run reports a state the run had since the question. -/
def Engine.reports (engine : Engine o) : List (Event (agent o)) → Bool
  | [] => true
  | e :: earlier => engine.reports earlier && match e with
    | .reply i (Call.inspect binding) (.ok s) => (sinceCall i earlier).any (engine · binding = s.state)
    | .reply i (Call.cancel binding) (.ok s) => (sinceCall i earlier).any (engine · binding = s.state)
    | _ => true

def cancelAsked : Event (agent o) → Bool
  | .call _ (Call.cancel _) => true
  | _ => false

/-- An engine that cancels a run as soon as it is asked to. -/
def obedient : Engine o := fun history _ => if history.any cancelAsked then .cancelled else .running

theorem obedient_ends : (obedient (o := o)).Ends := by
  intro earlier later binding ended
  unfold obedient at *
  by_cases asked : earlier.any cancelAsked
  · rw [if_pos asked,if_pos (by rw [List.any_append,asked,Bool.or_true])]
  · rw [if_neg asked] at ended
    cases ended

/-- A poll's inspection is still open when the owner cancels and the engine stops the run. -/
def lateAnswer : List (Choice (agent .plain) Op) :=
  [.invoke (.ingest (spoken "7" "a" "/бро x")),.resume 1 capable,.resume 0 (answered .running),.invoke .poll,
    .invoke (.cancel (.uuid 0)),.resume 5 (answered .cancelled)]

/-- The inspection reports the state the run had when it was asked, and the cancelled
snapshot is gone. -/
theorem terminal_not_final : ¬∀ (o : Options) (engine : Engine o) (w w' : World (agent o)) (key : AdmissionKey),
    Reachable o w → World.Leads (body o) w w' → engine.Ends → engine.reports w'.core.trace →
      Terminal key w.core → Terminal key w'.core := by
  intro final
  have played : (play lateAnswer boot).any fun w =>
      (w.core.state.store.runs.get (.uuid 0,1)).any (terminal ·.state) &&
      (play [.resume 4 (answered .running)] w).any fun w' => Engine.reports obedient w'.core.trace &&
        !(w'.core.state.store.runs.get (.uuid 0,1)).any (terminal ·.state) := by decide +kernel
  obtain ⟨w,reached,held⟩ := play_any played
  obtain ⟨ended,goes⟩ := Bool.and_eq_true_iff.mp held
  obtain ⟨w',run,late⟩ := play_any goes
  obtain ⟨reports,lost⟩ := Bool.and_eq_true_iff.mp late
  have kept := final .plain obedient w w' (.uuid 0,1) (boot_reachable.leads reached) run obedient_ends reports
    (terminal_iff.mpr ended)
  rw [terminal_iff.mp kept] at lost
  cases lost

/-- The cancelled run stays cancelled when its end is all that is answered about it. -/
theorem terminal_stays_cancelled : ∃ w w' : World (agent .plain), World.Leads (body .plain) w w' ∧
    w.core.trace.length < w'.core.trace.length ∧ Terminal (.uuid 0,1) w'.core := by
  have played : (play lateAnswer boot).any fun w =>
      (w.core.state.store.runs.get (.uuid 0,1)).any (terminal ·.state) &&
      (play [.resume 4 (answered .cancelled)] w).any fun w' => w'.core.trace.all unspoilt &&
        decide (w.core.trace.length < w'.core.trace.length) := by decide +kernel
  obtain ⟨w,reached,held⟩ := play_any played
  obtain ⟨ended,goes⟩ := Bool.and_eq_true_iff.mp held
  obtain ⟨w',run,clear⟩ := play_any goes
  obtain ⟨clear,longer⟩ := Bool.and_eq_true_iff.mp clear
  exact ⟨w,w',run,of_decide_eq_true longer,terminal_stays (boot_reachable.leads reached) run (unspoilt_prompt clear)
    (terminal_iff.mpr ended)⟩

end Neurobro.Agent
