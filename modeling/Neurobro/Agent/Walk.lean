import Neurobro.Agent.Discipline
import Neurobro.Agent.Operations

/-! A walk through the agent's programs for rules that ask something only where a run is
recorded or an effect is dispatched: what the programs do in between is free. -/
namespace Neurobro.Agent

open Coop

variable {o : Options}

/-- Whoever runs it, wherever it starts, the computation keeps the rules. -/
abbrev Tame (R : Rules (agent o)) {α : Type} (m : M o α) : Prop := ∀ i, Triple R i (fun _ => True) m fun _ _ => True

/-- Every command but those that record a run or bind a token to one. -/
def Cmd.routine : Cmd → Bool
  | .putRun _ _ | .bindToken _ _ => false
  | _ => true

/-- One run of a cancelled task: what the engine answers, or that it is not known. -/
def cancelListed (taskId : TaskId) (snapshot : RunSnapshot) : M o Unit := do
  let binding := snapshot.binding
  match ← Async.settle (cancelRun binding taskId binding.intentRevision binding.idempotencyKey) with
  | .ok _ => pure ()
  | .error e => markUnknown snapshot taskId ("Cancel settlement unknown: " ++ e.message)

/-- A submission and the binding of its answer. -/
def submitAndBind (intent : TaskIntent) (admission : Admission) (input : EngineInput) : M o Unit := do
  let snapshot ← orThrow (← ask (.submit input))
  bindSubmission intent admission snapshot

/-- What the walk asks of the rules: nothing where no run is recorded and nothing is
dispatched, and the four programs that record runs. `Known` is what a fiber remembers of
a run it has listed, `Owned` what it remembers of a token it has drawn. -/
structure Walk (R : Rules (agent o)) (Known : RunSnapshot → Instant o → Prop)
    (Owned : Nat → Token → Instant o → Prop) : Prop where
  sound : R.Sound
  act : ∀ {i cmd c}, R.inv c → cmd.routine = true → cmd.Wellformed → R.mayAct i cmd c
  ask : ∀ {i q c}, R.inv c → q.isDispatch = false → R.mayCall i q c
  lasting : ∀ s, Lasting R (Known s)
  owned : ∀ i token, Lasting R (Owned i token)
  drawn : ∀ {i context token} {c : Instant o}, (exec o (.issue context) c.state).1 = .ok token →
    Owned i token (c.act i (.issue context))
  stored : ∀ {c key s}, R.inv c → c.state.store.runs.get key = some s → s.binding.admissionKey = key ∧ Known s c
  inspect : ∀ i s, Triple R i (Known s) (inspectRun s) fun _ _ => True
  cancel : ∀ i s, Triple R i (Known s) (cancelListed s.binding.taskId s) fun _ _ => True
  stop : ∀ i s, Triple R i (Known s) (cancelRun s.binding s.binding.taskId s.binding.intentRevision
    s.binding.idempotencyKey) fun _ _ => True
  submit : ∀ i intent admission prepared previous, Triple R i (Owned i admission.token)
    (submitAndBind intent admission (engineInput intent admission prepared previous)) fun _ _ => True

namespace Tame

variable {R : Rules (agent o)} {α β : Type}

theorem bind {m : M o α} {f : α → M o β} (first : Tame R m) (next : ∀ a, Tame R (f a)) : Tame R (m >>= f) :=
  fun i => .seq (first i) fun a => next a i

theorem pure (a : α) : Tame R (Pure.pure a : M o α) := fun _ => .pure fun _ _ _ => trivial

theorem read (f : State → α) : Tame R (Agent.read f : M o α) := fun _ => .look fun _ _ _ => trivial

theorem require (f : State → Except Err α) : Tame R (Agent.require f : M o α) := fun _ => .check fun _ _ _ => trivial

theorem throws (r : Except Err α) : Tame R (orThrow r : M o α) := fun _ => .lift fun _ _ _ => trivial

theorem settle {m : M o α} (h : Tame R m) : Tame R (Async.settle m) := fun i => .settle (h i)

theorem ite {p : Prop} [Decidable p] {m m' : M o α} (yes : Tame R m) (no : Tame R m') :
    Tame R (if p then m else m') := fun i => .ite (fun _ => yes i) fun _ => no i

theorem each {items : List β} {f : β → M o Unit} (h : ∀ x ∈ items, Tame R (f x)) : Tame R (Async.each items f) :=
  fun i => .each_lasting (I := fun _ => True) (fun _ _ _ _ _ => trivial) fun x member => h x member i

theorem gather {items : List β} {f : β → M o α} (h : ∀ x ∈ items, Tame R (f x)) :
    Tame R (Async.gather items f) := by
  intro i
  refine (Triple.gather (E := fun _ _ => True) fun x member => (h x member i).post ?_).post ?_
  · intro r c _ _; cases r <;> trivial
  · intro _ _ _ _; trivial

theorem reported (disposition : Disposition) (T : TaskId) : Tame R (reported disposition T : M o IngestResult) :=
  .bind (.read _) fun _ => .pure _

theorem discard {m : M o α} (h : Tame R m) : Tame R (discard m) := .bind h fun _ => .pure _

end Tame

namespace Walk

variable {R : Rules (agent o)} {Known : RunSnapshot → Instant o → Prop}
  {Owned : Nat → Token → Instant o → Prop} (walk : Walk R Known Owned)

include walk

section steps

variable {α : Type}

theorem commits {cmd : Cmd} (free : cmd.routine = true) (formed : cmd.Wellformed) :
    Tame R (commit cmd : M o cmd.Result) :=
  fun _ => .act walk.sound (fun _ inv _ => walk.act inv free formed) fun _ _ _ _ => trivial

theorem asks (free : q.isDispatch = false) : Tame R (Agent.ask q : M o q.Reply) :=
  fun _ => .call walk.sound .top (fun _ inv _ => walk.ask inv free) (fun _ _ _ => trivial) fun _ _ _ _ => trivial

theorem awaits {m : M o α} (h : Tame R m) : Tame R (Async.await m) := fun i => .await walk.sound (h i) fun _ => .top

theorem joins (fiber : Nat) : Tame R (Async.join fiber : M o Unit) :=
  fun _ => .join walk.sound .top fun _ _ _ _ => trivial

/-- A computation in between keeps what is remembered of a run. -/
theorem keeps (h : Tame R m) (i : Nat) (s : RunSnapshot) : Triple R i (Known s) m fun _ => Known s:=
  (((h i).pre fun _ _ _ => trivial).keep (walk.lasting s)).weaken (fun _ _ known => ⟨known,known⟩) fun _ _ _ q => q.2

end steps

/-! ## The controller -/

theorem stopChildren (T : TaskId) (reason : String) (revision : Nat) :
    Tame R (stopChildren T reason revision : M o Bool) := by
  refine .bind (.read _) fun _ => .ite (.pure _) (.bind (walk.commits rfl trivial) fun _ => .bind (walk.asks rfl) fun r => ?_)
  cases r with
  | ok result => exact .bind (walk.commits rfl trivial) fun _ => .pure _
  | error e => exact .bind (walk.commits rfl trivial) fun _ => .pure _

theorem hold (T : TaskId) (reason : String) (resume : Bool) : Tame R (hold T reason resume : M o Unit) :=
  .bind (.require _) fun _ => .bind (walk.commits rfl trivial) fun _ => .bind (.throws _) fun _ =>
    .bind (walk.awaits (walk.stopChildren _ _ _)) fun _ => .pure _

theorem held (T : TaskId) (reason : String) (resume : Bool) : Tame R (Async.await (Agent.hold T reason resume) : M o Unit) :=
  walk.awaits (walk.hold T reason resume)

theorem prepareTaskAuthority (T : TaskId) : Tame R (prepareTaskAuthority T : M o ToolContext) := by
  have rest : ∀ (intent : TaskIntent) (grant : Grant) (baseline : Time) (prepared : Option PreparedAuthority)
      (f : State → Except Err ToolContext), Tame R (do
        orThrow (← commit (.refreshGrant intent grant baseline prepared))
        Agent.require f : M o ToolContext) :=
    fun _ _ _ _ _ => .bind (walk.commits rfl trivial) fun _ => .bind (.throws _) fun _ => .require _
  refine .bind (.require _) fun ⟨intent,grant⟩ => .bind (walk.commits rfl trivial) fun baseline => .ite ?_ ?_
  · exact .bind (walk.asks rfl) fun _ => .bind (.throws _) fun _ => .bind (.pure _) fun _ => rest _ _ _ _ _
  · exact .bind (walk.awaits (.pure _)) fun _ => rest _ _ _ _ _

/-- A shared inspection of a run that has been listed. -/
theorem refresh (i : Nat) (s : RunSnapshot) : Triple R i (Known s) (refresh s) fun _ _ => True := by
  refine .seq (walk.keeps (.read _) i s) fun active => ?_
  cases active with
  | some action => exact (walk.joins action i).pre fun _ _ _ => trivial
  | none =>
    refine .seq (Q := fun _ _ => True) (.fork walk.sound (walk.lasting s).stable (fun j _ => walk.inspect j s)
      (fun _ _ known => known) fun _ _ _ _ => trivial) fun action => ?_
    have rest : Tame R (do
        commit (.setPoll s.binding.admissionKey action)
        let settled ← Async.settle (Async.join action)
        commit (.clearPoll s.binding.admissionKey)
        orThrow settled : M o Unit) :=
      .bind (walk.commits rfl trivial) fun _ => .bind (.settle (walk.joins action)) fun _ =>
        .bind (walk.commits rfl trivial) fun _ => .throws _
    exact rest i

theorem prepareSubmission (intent : TaskIntent) (token : Token) :
    Tame R (prepareSubmission intent token : M o PreparedInput) := by
  have checked : ∀ prepared : PreparedInput, Tame R (do
      let _ ← Agent.require (·.resolve token)
      pure prepared : M o PreparedInput) := fun _ => .bind (.require _) fun _ => .pure _
  exact .ite (.bind (walk.asks rfl) fun _ => .bind (.throws _) fun _ => checked _)
    (.bind (walk.awaits (.pure _)) fun _ => checked _)

/-- A computation in between keeps what is remembered of a token. -/
theorem owns {α : Type} {m : M o α} (h : Tame R m) (i : Nat) (token : Token) :
    Triple R i (Owned i token) m fun _ => Owned i token :=
  (((h i).pre fun _ _ _ => trivial).keep (walk.owned i token)).weaken (fun _ _ known => ⟨known,known⟩) fun _ _ _ q => q.2

theorem submitReserved (i : Nat) (intent : TaskIntent) (admission : Admission) :
    Triple R i (Owned i admission.token) (submitReserved intent admission : M o Unit) fun _ _ => True := by
  refine .seq (Q := fun _ => Owned i admission.token) (walk.owns (.settle (walk.prepareSubmission _ _)) i _) fun r => ?_
  cases r with
  | error e =>
    have blocked : Tame R (do
        commit (.putAdmission { admission with state := .blocked, reason := some e.message })
        Async.await (Agent.hold intent.id ("Input preparation blocked: " ++ e.message)) : M o Unit) :=
      .bind (walk.commits rfl trivial) fun _ => walk.held _ _ _
    exact (blocked i).pre fun _ _ _ => trivial
  | ok prepared =>
    refine .seq (walk.owns (.read _) i _) fun previous => ?_
    refine .seq (Q := fun _ _ => True) (.settle (walk.submit i intent admission prepared previous)) fun r => ?_
    cases r with
    | ok _ => exact .pure fun _ _ _ => trivial
    | error e =>
      exact @Walk.commits o R Known Owned walk
        (.putAdmission { admission with state := .unknown, reason := some e.message }) rfl trivial i

theorem admitPrepared (intent : TaskIntent) : Tame R (admitPrepared intent : M o Unit) := by
  refine .bind (.require _) fun grant => .bind (.read _) fun _ => .ite (walk.held _ _ _) fun i => ?_
  refine .seq (Q := onOk fun r c => ∀ token, r = .ok token → Owned i token c)
    (.act walk.sound (fun _ inv _ => walk.act inv rfl trivial) fun _ _ _ _ _ drawn => walk.drawn drawn) fun r => ?_
  refine .seq (Q := onOk fun token => Owned i token) (.lift fun c _ drawn => ?_) fun token => ?_
  · cases r with
    | ok token => exact drawn token rfl
    | error e => trivial
  refine .seq (walk.owns (.read _) i token) fun now => ?_
  let admission : Admission := { taskId := intent.id,revision := intent.revision,key := submissionKey o intent,token
                                 state := .reserved,createdAt := now }
  refine .seq (walk.owns (@Walk.commits o R Known Owned walk (.reserve admission) rfl trivial) i token) fun won => ?_
  exact .ite (fun _ => walk.submitReserved i intent admission) fun _ => .pure fun _ _ _ => trivial

theorem admitIntent (intent : TaskIntent) : Tame R (admitIntent intent : M o Unit) := by
  refine .bind (.require _) fun _ => .ite (.pure _) <| .bind (.read _) fun _ => .ite (walk.held _ _ _) <|
    .bind (.settle (walk.awaits (walk.prepareTaskAuthority _))) fun authority =>
    .bind (.require _) fun _ => .ite (.pure _) ?_
  cases authority with
  | ok _ => exact walk.admitPrepared _
  | error e => exact walk.held _ _ _

/-- What is known of every run a fiber has listed. -/
theorem listed {c : Instant o} (inv : R.inv c) {s : RunSnapshot} (member : s ∈ c.state.runs o) : Known s c := by
  obtain ⟨key,found⟩ := Table.mem_list.mp member
  exact (walk.stored inv found).2

theorem allLasting (runs : List RunSnapshot) : Lasting R fun c => ∀ s ∈ runs, Known s c :=
  fun _ _ _ move known s member => walk.lasting s move (known s member)

theorem applyCancellation (T : TaskId) : Tame R (applyCancellation T : M o (Option TaskStatus)) := by
  refine .bind (.require _) fun intent => .bind (walk.commits rfl trivial) fun _ => .bind (.throws _) fun _ =>
    .bind (walk.awaits (walk.stopChildren _ _ _)) fun _ i => ?_
  refine .seq (Q := onOk fun live c => (∀ s ∈ live, s.binding.taskId = T) ∧ ∀ s ∈ live, Known s c)
    (.look fun c inv _ => ⟨fun s member => ?_,fun s member => walk.listed inv (List.mem_filter.mp member).1⟩)
    fun live => .assume fun named => ?_
  · have chosen := (List.mem_filter.mp member).2
    simp only [decide_eq_true_eq] at chosen
    exact chosen.1
  refine .seq (.each_lasting (walk.allLasting live) fun s member => ?_) fun _ => Tame.read _ i
  exact named s member ▸ (walk.cancel i s).pre fun _ _ known => known s member

theorem stopPrior (i : Nat) (T : TaskId) (current : Option RunSnapshot) (named : ∀ s ∈ current, s.binding.taskId = T) :
    Triple R i (fun c => ∀ s ∈ current, Known s c) (stopPrior T current) fun _ _ => True := by
  unfold Agent.stopPrior
  cases live : current.filter (!terminal ·.state) with
  | none => exact .pure fun _ _ _ => trivial
  | some s =>
    have member : s ∈ current := (Option.filter_eq_some_iff.mp live).1
    have stopping : Triple R i (Known s) (do
        let ended ← cancelRun s.binding T s.binding.intentRevision s.binding.idempotencyKey
        if terminal ended.state then pure true
        else
          Async.await (Agent.hold T "Correction saved; old engine execution has not settled" true)
          pure false : M o Bool) fun _ _ => True := by
      refine .seq (named s member ▸ walk.stop i s) fun ended => ?_
      exact Tame.ite (.pure _) (.bind (walk.held _ _ _) fun _ => .pure _) i
    refine .seq (Q := fun _ _ => True) (.settle (stopping.pre fun c _ (known : ∀ s ∈ current, Known s c) => known s member))
      fun stopped => ?_
    cases stopped with
    | ok proceed => exact Tame.pure _ i
    | error e => exact Tame.bind (walk.held _ _ _) (fun _ => .pure _) i

theorem resumeCorrection (T : TaskId) (intent : TaskIntent) : Tame R (resumeCorrection T intent : M o Unit) :=
  .bind (.require _) fun _ => .ite (.pure _) <| .bind (.read _) fun _ => .ite (walk.held _ _ _) <|
    .bind (walk.commits rfl trivial) fun _ => .bind (.read _) fun _ => .ite (.pure _) (walk.awaits (walk.admitIntent _))

theorem settleCorrection (i : Nat) (request : CorrectionRequest) (before : TaskIntent) (current : Option RunSnapshot)
    (intent : TaskIntent) (named : ∀ s ∈ current, s.binding.taskId = request.taskId) :
    Triple R i (fun c => ∀ s ∈ current, Known s c) (settleCorrection request before current intent) fun _ _ => True := by
  have lasting : Lasting R fun c => ∀ s ∈ current, Known s c :=
    fun _ _ _ move known s member => walk.lasting s move (known s member)
  have children := walk.awaits (walk.stopChildren request.taskId "Parent task corrected" before.revision)
  refine .seq (((children i).pre fun _ _ _ => trivial).keep lasting |>.weaken (fun _ _ known => ⟨known,known⟩)
    fun _ _ _ q => q.2) fun childrenSettled => ?_
  refine .seq (walk.stopPrior i request.taskId current named) fun stopped => ?_
  exact Tame.ite (.pure _) (.bind (.read _) fun _ => .ite (walk.held _ _ _) <| .bind (.read _) fun _ =>
    .ite (walk.held _ _ _) (.ite (.pure _) (walk.resumeCorrection _ _))) i

theorem applyCorrection (request : CorrectionRequest) (formed : (Cmd.correctTask request).Wellformed) :
    Tame R (applyCorrection request : M o (Option TaskStatus)) := by
  refine .ite (.throws _) (.bind (.require _) fun before => .bind (.read _) fun _ => .ite (.read _) fun i => ?_)
  refine .seq (Q := onOk fun current c => (∀ s ∈ current, s.binding.taskId = request.taskId) ∧ ∀ s ∈ current, Known s c)
    (.look fun c inv _ => ?_) fun current => .assume fun named => ?_
  · refine ⟨fun s member => ?_,fun s member => (walk.stored inv member).2⟩
    exact congrArg Prod.fst (walk.stored inv member).1
  have lasting : Lasting R fun c => ∀ s ∈ current, Known s c :=
    fun _ _ _ move known s member => walk.lasting s move (known s member)
  have keeps : ∀ {β : Type} {m : M o β}, Tame R m →
      Triple R i (fun c => ∀ s ∈ current, Known s c) m fun _ c => ∀ s ∈ current, Known s c := fun tame =>
    (((tame i).pre fun _ _ _ => trivial).keep lasting).weaken (fun _ _ known => ⟨known,known⟩) fun _ _ _ q => q.2
  refine .seq (keeps (walk.commits rfl formed)) fun _ => .seq (keeps (.throws _)) fun corrected => ?_
  exact .seq (walk.settleCorrection i request before current corrected.intent named) fun _ => Tame.read _ i

theorem resumeSettledCorrections : Tame R (resumeSettledCorrections : M o Unit) := by
  refine .bind (.read _) fun controls => .each fun control _ => .ite (.pure _) ?_
  exact .bind (.require _) fun _ => .bind (.read _) fun _ => .ite (.pure _) <| .bind (walk.commits rfl trivial) fun _ =>
    .bind (.throws _) fun _ => .bind (.require _) fun _ => walk.awaits (walk.admitIntent _)

/-! ## The broker, short of a dispatch -/

theorem settle (effect : Effect) (result : EffectResult) : Tame R (settle effect result : M o Effect) := by
  refine .bind (walk.commits rfl trivial) fun _ => .bind (.throws _) fun settled => ?_
  exact .ite (.bind (walk.commits rfl trivial) fun _ => .pure _) (.pure _)

theorem revokeTask (T : TaskId) : Tame R (revokeTask T : M o Unit) :=
  .bind (.read _) fun _ => .each fun _ _ => .ite (walk.commits rfl trivial) (.pure _)

theorem recoverEffects : Tame R (recoverEffects : M o Unit) :=
  .bind (.read _) fun _ => .each fun _ _ => .bind (.read _) fun _ => .ite (.pure _) <|
    .bind (walk.commits rfl trivial) fun _ => .bind (walk.asks rfl) fun _ => .bind (walk.settle _ _) fun _ => .pure _

theorem issueToolContext (binding : RunBinding) : Tame R (issueToolContext binding : M o Token) :=
  .bind (.require _) fun _ => .bind (walk.commits rfl trivial) fun _ => .throws _

/-! ## Observations -/

theorem invalidateOriginDrafts (obs : Observation) : Tame R (invalidateOriginDrafts obs : M o Unit) := by
  refine .bind (.read _) fun tasks => .each fun intent _ => .ite (.pure _) ?_
  exact .bind (.require _) fun _ => .ite (.pure _) <| .bind (walk.commits rfl trivial) fun _ => .bind (.throws _) fun _ =>
    .bind (walk.revokeTask _) fun _ => walk.commits rfl trivial

theorem followUp (obs : Observation) (eventKey : EventKey) (T : TaskId) (instruction : String) (route : Route)
    (authorizedAt : Stamp) : Tame R (followUp obs eventKey T instruction route authorizedAt : M o IngestResult) :=
  .bind (.read _) fun _ => .ite (.pure _) <| .bind (walk.awaits (walk.applyCorrection _ nofun)) fun _ => Tame.reported _ _

theorem acceptCommand (obs : Observation) (command : String) :
    Tame R (acceptCommand obs command : M o IngestResult) := by
  refine .bind (walk.commits rfl trivial) fun ⟨intent,created⟩ => .ite (.bind (.read _) fun _ => .pure _) ?_
  exact .bind (.read _) fun _ => .ite (Tame.reported _ _) <|
    .bind (walk.awaits (walk.admitIntent _)) fun _ => Tame.reported _ _

theorem handlePlain (obs : Observation) (eventKey : EventKey) (natural : Bool) (command : String) (target : Target) :
    Tame R (handlePlain obs eventKey natural command target : M o IngestResult) := by
  refine .ite (.ite (.pure _) (.bind (.read _) fun policy => ?_)) (walk.acceptCommand obs command)
  cases target.task.filter fun t => policy.all fun allows => allows t.id with
  | some task => exact walk.followUp _ _ _ _ _ _
  | none => exact walk.acceptCommand obs command

theorem handleCommand (obs : Observation) (eventKey : EventKey) (natural : Bool) (command : String) :
    Tame R (handleCommand obs eventKey natural command : M o IngestResult) := by
  refine .bind (.read _) fun target => .ite (.ite (.pure _) ?_) <| .ite ?_ <| .ite ?_ <| .bind (.read _) fun bound => ?_
  · cases target.task with
    | some task => exact Tame.reported _ _
    | none => exact .bind (.read _) fun _ => .pure _
  · cases target.task with
    | none => exact .pure _
    | some task => exact .bind (walk.awaits (walk.applyCancellation _)) fun _ => Tame.reported _ _
  · cases target.task with
    | none => exact .pure _
    | some task => exact walk.followUp _ _ _ _ _ _
  · cases target.task.filter fun _ => bound with
    | some task => exact walk.followUp _ _ _ _ _ _
    | none => exact walk.handlePlain _ _ _ _ _

theorem handleAuthored (obs : Observation) (eventKey : EventKey) (sourceTask : Option TaskIntent) :
    Tame R (handleAuthored obs eventKey sourceTask : M o IngestResult) := by
  unfold Agent.handleAuthored
  cases sourceTask.filter fun _ => obs.kind = .edit with
  | some task => exact .ite (.bind (walk.held _ _ _) fun _ => .pure _) (walk.followUp _ _ _ _ _ _)
  | none =>
    refine .bind (.read _) fun replyTask => .bind (.read _) fun replySourceTask => .ite ?_ ?_
    · exact .bind (walk.invalidateOriginDrafts obs) fun _ => .pure _
    · cases sourceTask with
      | some task => exact .pure _
      | none => exact .ite (.pure _) (.ite (.pure _) (walk.handleCommand _ _ _ _))

theorem handleDelete (obs : Observation) : Tame R (handleDelete obs : M o IngestResult) := by
  refine .ite (.pure _) (.bind (.read _) fun task => ?_)
  cases task with
  | none => exact .pure _
  | some task => exact .bind (walk.held _ _ _) fun _ => Tame.reported _ _

theorem processObservation (obs : Observation) (eventKey : EventKey) :
    Tame R (processObservation obs eventKey : M o IngestResult) := by
  refine .bind ?_ fun _ => .bind (walk.commits rfl trivial) fun _ => .pure _
  refine .ite (.pure _) <| .bind (.read _) fun own => .ite (.pure _) <| .ite (walk.handleDelete obs) <|
    .ite (.pure _) <| .bind (.read _) fun sourceTask => .ite ?_ (walk.handleAuthored _ _ _)
  cases sourceTask.filter fun _ => obs.kind = .edit with
  | some task => exact .bind (walk.held _ _ _) fun _ => Tame.reported _ _
  | none => exact .pure _

/-! ## Recovery -/

theorem replayObservations : Tame R (replayObservations : M o Unit) :=
  .bind (.read _) fun _ => .each fun _ _ => .bind (.read _) fun _ => .ite (.pure _) <|
    .bind (walk.awaits (walk.processObservation _ _)) fun _ => walk.commits rfl trivial

theorem stopOpenChildren (reason : String) : Tame R (stopOpenChildren reason : M o Unit) :=
  .bind (.read _) fun _ => .each fun _ _ => .bind (walk.awaits (walk.stopChildren _ _ _)) fun _ => .pure _

theorem restoreRun (i : Nat) (s : RunSnapshot) : Triple R i (Known s) (restoreRun s) fun _ _ => True := by
  have refreshed : Triple R i (Known s) (Async.await (Agent.refresh s)) fun _ _ => True :=
    .await walk.sound (walk.refresh i s) fun _ => .top
  refine .seq (walk.keeps (.read _) i s) fun admission => ?_
  cases admission with
  | none => exact refreshed
  | some admission =>
    have restoring : Tame R (do
        let _ ← Agent.require (·.resolve admission.token)
        if o.restoreToolBinding then orThrow (← Agent.ask (.restoreToolBinding s.binding admission.token))
        else Async.await (pure ()) : M o Unit) :=
      .bind (.require _) fun _ => .ite (.bind (walk.asks rfl) fun _ => .throws _) (walk.awaits (.pure _))
    refine .seq (walk.keeps (.settle restoring) i s) fun r => ?_
    cases r with
    | ok _ => exact refreshed
    | error e => exact .ite (fun _ => refreshed) fun _ => .lift fun _ _ _ => trivial

theorem recoverTask (intent : TaskIntent) : Tame R (recoverTask intent : M o Unit) :=
  .bind (.read _) fun _ => .ite (.pure _) <| .bind (.read _) fun _ => .ite (walk.held _ _ _)
    (walk.awaits (walk.admitIntent _))

theorem restoreRuns (i : Nat) (runs : List RunSnapshot) :
    Triple R i (fun c => ∀ s ∈ runs, Known s c) (Async.each runs Agent.restoreRun) fun _ _ => True :=
  .each_lasting (walk.allLasting runs) fun s member => (walk.restoreRun i s).pre fun _ _ known => known s member

theorem recover : Tame R (recover : M o Unit) := by
  refine .bind (walk.asks rfl) fun _ => .bind (.throws _) fun _ => .ite (.throws _) ?_
  refine .bind (.bind (.read _) fun _ => .each fun _ _ => .ite (walk.commits rfl trivial) (.pure _)) fun _ => ?_
  refine .bind (walk.commits rfl trivial) fun _ => .bind (.settle walk.replayObservations) fun _ =>
    .bind (walk.commits rfl trivial) fun _ => .bind (.throws _) fun _ => .bind (walk.awaits walk.recoverEffects) fun _ =>
    .bind (walk.stopOpenChildren _) fun _ i => ?_
  refine .seq (Q := onOk fun runs c => ∀ s ∈ runs, Known s c) (.look fun c inv _ s member => walk.listed inv member)
    fun runs => .seq (walk.restoreRuns i runs) fun _ => ?_
  exact Tame.bind (.read _) (fun _ => .each fun _ _ => walk.recoverTask _) i

theorem start : Tame R (start : M o Unit) := by
  refine .bind (.read _) fun recovery => ?_
  cases recovery with
  | some fiber => exact walk.joins fiber
  | none =>
    refine .bind (fun i => ?_) fun fiber => .bind (walk.commits rfl trivial) fun _ => walk.joins fiber
    exact .fork walk.sound .top (fun j _ => walk.recover j) (fun _ _ _ => trivial) fun _ _ _ _ => trivial

theorem started {α : Type} {m : M o α} (h : Tame R m) : Tame R (do Async.await Agent.start; m) :=
  .bind (walk.awaits walk.start) fun _ => h

theorem refreshRuns : Tame R (refreshRuns : M o Unit) := by
  intro i
  refine .seq (Q := onOk fun live c => ∀ s ∈ live, Known s c)
    (.look fun c inv _ s member => walk.listed inv (List.mem_filter.mp member).1) fun live => ?_
  refine .seq (Triple.gather (E := fun _ _ => True) fun s member => ?_) fun fibers => ?_
  · exact .fork walk.sound (walk.allLasting live).stable (fun j _ => walk.refresh j s)
      (fun _ _ known => known s member) fun _ _ _ known => known
  · exact (Tame.each fun fiber _ => walk.joins fiber) i |>.pre fun _ _ _ => trivial

/-- All that a poll does before it delivers. -/
theorem prepareDeliveries : Tame R (do
    Async.await Agent.start
    Async.await Agent.recoverEffects
    Agent.refreshRuns
    Agent.stopOpenChildren "Reconcile parent stop"
    Async.await Agent.resumeSettledCorrections : M o Unit) :=
  walk.started <| .bind (walk.awaits walk.recoverEffects) fun _ => .bind walk.refreshRuns fun _ =>
    .bind (walk.stopOpenChildren _) fun _ => walk.awaits walk.resumeSettledCorrections

theorem ingest (obs : Observation) : Tame R (ingest obs : M o IngestResult) :=
  walk.started <| .ite (.pure _) <| .bind (.read _) fun _ => .ite (.pure _) <| .bind (walk.commits rfl trivial) fun _ =>
    .bind (walk.awaits (walk.processObservation _ _)) fun _ => .bind (walk.commits rfl trivial) fun _ => .pure _

/-! ## Every operation, where dispatches are free too -/

theorem acknowledgementReplacement (intent : TaskIntent) :
    Tame R (acknowledgementReplacement intent : M o (Option Json)) := by
  refine .ite (.pure _) (.bind (.require _) fun sent => ?_)
  cases sent with
  | none => exact .pure _
  | some sent =>
    refine .bind (walk.asks rfl) fun answer => ?_
    cases answer with
    | error e => exact .pure _
    | ok current =>
      cases current with
      | none => exact .pure _
      | some current => exact .ite (.pure _) (.pure _)

section operations

variable (dispatches : ∀ {i q c}, R.inv c → R.mayCall i q c)

include dispatches

theorem executeBound (token : Token) (request : EffectRequest) :
    Tame R (executeBound token request : M o Effect) := by
  refine .bind (.require _) fun prepared => ?_
  cases prepared.existing with
  | some effect => exact .pure _
  | none =>
    have call : ∀ q : Call, Tame R (Agent.ask q : M o q.Reply) := fun q _ =>
      .call walk.sound .top (fun _ inv _ => dispatches inv) (fun _ _ _ => trivial) fun _ _ _ _ => trivial
    exact .bind (walk.commits rfl trivial) fun _ => .bind (.throws _) fun effect => .bind (walk.commits rfl trivial) fun _ =>
      .bind (call _) fun _ => .bind (walk.commits rfl trivial) fun _ => walk.settle _ _

theorem execute (token : Token) (request : EffectRequest) : Tame R (execute token request : M o Effect) :=
  .ite (.throws _) (walk.executeBound dispatches token request)

theorem executeDelivery (token : Token) (request : EffectRequest) :
    Tame R (executeDelivery token request : M o Effect) :=
  .bind (.require _) fun _ => walk.executeBound dispatches token request

theorem deliverPart (token : Token) (intent : TaskIntent) (request : EffectRequest) (index : Nat) :
    Tame R (deliverPart token intent request index : M o Effect) := by
  refine .bind (.require _) fun previous => ?_
  have sent : ∀ request, Tame R (Async.await (Agent.executeDelivery token request) : M o Effect) :=
    fun request => walk.awaits (walk.executeDelivery dispatches token request)
  cases previous with
  | some effect => exact .bind (.pure _) fun _ => sent _
  | none =>
    refine .ite (.bind (walk.awaits (walk.acknowledgementReplacement _)) fun _ => ?_)
      (.bind (.pure _) fun _ => ?_)
    · exact .bind (.pure _) fun _ => sent _
    · exact .bind (.pure _) fun _ => sent _

theorem deliverFrom (token : Token) (intent : TaskIntent) (runId : RunId) (total : Nat) (parts : List String) :
    ∀ index, Tame R (deliverFrom token intent runId total index parts : M o (List Effect)) := by
  induction parts with
  | nil => exact fun _ => .pure _
  | cons part rest ih =>
    intro index
    refine .bind (.settle (walk.deliverPart dispatches _ _ _ _)) fun delivered => ?_
    cases delivered with
    | error e => exact .ite (.pure _) (.throws _)
    | ok effect => exact .ite (.pure _) (.bind (ih (index + 1)) fun _ => .pure _)

theorem deliver (status : TaskStatus) : Tame R (deliver status : M o (List Effect)) := by
  unfold Agent.deliver
  cases status.deliverable with
  | none => exact .pure _
  | some output =>
    exact .bind (.require _) fun _ => .bind (.read _) fun _ => .ite (.pure _) <|
      .bind (walk.issueToolContext _) fun _ => walk.deliverFrom dispatches _ _ _ _ _ _

theorem poll : Tame R (poll : M o PollResult) :=
  walk.started <| .bind (walk.awaits walk.recoverEffects) fun _ => .bind walk.refreshRuns fun _ =>
    .bind (walk.stopOpenChildren _) fun _ => .bind (walk.awaits walk.resumeSettledCorrections) fun _ =>
    .bind (.read _) fun _ => .bind (.gather fun _ _ => walk.deliver dispatches _) fun _ =>
    .bind (.read _) fun _ => .pure _

theorem journalControlReply (obs : Observation) (text : String) (target : Option TaskId) :
    Tame R (journalControlReply obs text target : M o Effect) := by
  refine walk.started <| .bind (.read _) fun _ => .ite (.throws _) <| .bind (.require _) fun _ =>
    .bind (walk.commits rfl fun _ => nofun) fun _ => .bind (.require _) fun _ => .bind (walk.commits rfl trivial) fun _ =>
    .bind (.throws _) fun _ => .bind (.read _) fun existing => ?_
  cases existing with
  | some effect => exact .pure _
  | none => exact walk.execute dispatches _ _

end operations

theorem refreshContext (T : TaskId) : Tame R (refreshContext T : M o (Option TaskStatus)) :=
  walk.started <| .bind (.read _) fun _ => walk.applyCorrection _ fun _ => rfl

theorem refreshInvalidatedTask (status : TaskStatus) : Tame R (refreshInvalidatedTask status : M o Unit) := by
  refine .bind (.read _) fun _ => .ite (.pure _) <| .bind (.read _) fun _ => .bind (.read _) fun _ => .ite (.pure _) <| .bind (walk.commits rfl trivial) fun _ =>
    .bind (walk.awaits (walk.refreshContext _)) fun _ => .bind (walk.commits rfl trivial) fun _ =>
    .bind (.read _) fun failure => ?_
  cases failure with
  | some failure => exact .throws _
  | none => exact .pure _

theorem refreshInvalidatedTasks : Tame R (refreshInvalidatedTasks : M o Unit) :=
  .bind (.read _) fun _ => .each fun status _ => walk.refreshInvalidatedTask status

theorem registerAcknowledgement (T : TaskId) (effect : Effect) :
    Tame R (registerAcknowledgement T effect : M o Unit) :=
  .bind (.require _) fun _ => .bind (.read _) fun _ => .bind (.throws _) fun _ => .ite (.throws _) <|
    .bind (.read _) fun _ => .ite (.pure _) (walk.commits rfl trivial)

/-- Rules that leave dispatches free are kept by every operation. -/
theorem program (dispatches : ∀ {i q c}, R.inv c → R.mayCall i q c) (op : Op) : Tame R (op.program o) := by
  cases op with
  | start => exact walk.start
  | ingest obs => exact (walk.ingest obs).discard
  | poll => exact (walk.poll dispatches).discard
  | cancel T => exact (walk.started (walk.applyCancellation T)).discard
  | suspendTask T reason => exact walk.started (walk.held T reason false)
  | correct T instruction route =>
    refine (walk.started (.bind (.read _) fun now => ?_)).discard
    exact walk.applyCorrection { taskId := T,instruction,route,authorizedAt := some now } nofun
  | refreshContext T => exact (walk.refreshContext T).discard
  | refreshAuthority T => exact (walk.started (walk.prepareTaskAuthority T)).discard
  | refreshInvalidatedTasks => exact walk.refreshInvalidatedTasks
  | executeEffect token request => exact (walk.started (walk.execute dispatches token request)).discard
  | journalControlReply obs text target => exact (walk.journalControlReply dispatches obs text target).discard
  | registerAcknowledgement T effect => exact walk.registerAcknowledgement T effect
  | registerOwnOutput ref T effectId => exact .bind (.require _) fun _ => .ite (.throws _) (walk.commits rfl trivial)
  | issueToolContext binding => exact (walk.issueToolContext binding).discard
  | issueExecutionContext context =>
    exact Tame.discard (.bind (.require _) fun _ => .bind (walk.commits rfl trivial) fun _ => .throws _)
  | revokeToolContext token => exact @Walk.commits o R Known Owned walk (.revokeToken token) rfl trivial
  | execute token request => exact (walk.execute dispatches token request).discard
  | executeBound token request => exact (walk.executeBound dispatches token request).discard
  | executeDelivery token request => exact (walk.executeDelivery dispatches token request).discard
  | recoverEffects => exact walk.recoverEffects
  | revokeTask T => exact walk.revokeTask T

end Walk

end Neurobro.Agent
