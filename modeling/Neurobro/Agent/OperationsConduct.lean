import Neurobro.Agent.IngestConduct

/-! Every operation keeps the discipline, so every run of the agent does. -/
namespace Neurobro.Agent

open Coop

variable {o : Options}

/-! ## Delivery -/

theorem calm_acknowledgementReplacement (intent : TaskIntent) :
    Calm (acknowledgementReplacement intent : M o (Option Json)) := by
  refine .ite (.pure _) (.bind (.check _) fun sent => ?_)
  cases sent with
  | none => exact .pure _
  | some sent =>
    refine .bind (calm_ask fun _ _ => trivial) fun answer => ?_
    cases answer with
    | error e => exact .pure _
    | ok current =>
      cases current with
      | none => exact .pure _
      | some current => exact .ite (.pure _) (.pure _)

theorem calm_deliverPart (token : Token) (intent : TaskIntent) (request : EffectRequest) (index : Nat) :
    Calm (deliverPart token intent request index : M o Effect) := by
  refine .bind (.check _) fun previous => ?_
  cases previous with
  | some effect => exact .bind (.pure _) fun _ => calm_await (calm_executeDelivery _ _)
  | none =>
    refine .ite (.bind (calm_await (calm_acknowledgementReplacement _)) fun _ => ?_) (.bind (.pure _) fun _ => ?_)
    · exact .bind (.pure _) fun _ => calm_await (calm_executeDelivery _ _)
    · exact .bind (.pure _) fun _ => calm_await (calm_executeDelivery _ _)

theorem calm_deliverFrom (token : Token) (intent : TaskIntent) (runId : RunId) (total : Nat)
    (parts : List String) : ∀ index, Calm (deliverFrom token intent runId total index parts : M o (List Effect)) := by
  induction parts with
  | nil => exact fun _ => .pure _
  | cons part rest ih =>
    intro index
    refine .bind (.settle (calm_deliverPart _ _ _ _)) fun delivered => ?_
    cases delivered with
    | error e => exact .ite (.pure _) (.lift _)
    | ok effect => exact .ite (.pure _) (.bind (ih (index + 1)) fun _ => .pure _)

theorem calm_deliver (status : TaskStatus) : Calm (deliver status : M o (List Effect)) := by
  unfold deliver
  cases status.deliverable with
  | none => exact .pure _
  | some output =>
    exact .bind (.check _) fun _ => .bind (.look _) fun _ => .ite (.pure _) <|
      .bind (calm_issueToolContext _) fun _ => calm_deliverFrom _ _ _ _ _ _

theorem calm_refreshRuns : Calm (refreshRuns : M o Unit) := by
  intro i _
  have known (live : List RunSnapshot) :
      Lasting (discipline o) fun c : Instant o => ∀ snapshot ∈ live, Registered snapshot c :=
    fun _ _ _ move runs snapshot member => registered_lasting snapshot move (runs snapshot member)
  refine .seq (Q := onOk fun (live : List RunSnapshot) c => ∀ snapshot ∈ live, Registered snapshot c)
    (.look fun c orderly _ snapshot member => registered_of_mem orderly (List.mem_filter.mp member).1)
    fun live => ?_
  refine .seq (Triple.gather (E := fun _ _ => True) fun snapshot member => ?_) fun fibers => ?_
  · exact .fork (discipline_sound o) (known live).stable (fun j _ => refresh_conduct snapshot)
      (fun c _ runs => runs snapshot member) fun _ c _ runs => runs
  · exact (Quiet.each fun fiber _ => .join (discipline_sound o) fiber).triple untaken

theorem calm_poll : Calm (poll : M o PollResult) :=
  .bind (calm_await calm_start) fun _ => .bind (calm_await calm_recoverEffects) fun _ =>
    .bind calm_refreshRuns fun _ => .bind (calm_stopOpenChildren _) fun _ =>
    .bind (calm_await calm_resumeSettledCorrections) fun _ => .bind (.look _) fun _ =>
    .bind (.gather fun status _ => calm_deliver status) fun _ => .bind (.look _) fun _ => .pure _

/-! ## Direct operations -/

theorem calm_refreshContext (T : TaskId) : Calm (refreshContext T : M o (Option TaskStatus)) :=
  .bind (calm_await calm_start) fun _ => .bind (.look _) fun _ => applyCorrection_conduct fun _ => rfl

theorem calm_registerAcknowledgement (T : TaskId) (effect : Effect) :
    Calm (registerAcknowledgement T effect : M o Unit) :=
  .bind (.check _) fun _ => .bind (.look _) fun _ => .bind (.lift _) fun _ => .ite (.lift _) <|
    .bind (.look _) fun _ => .ite (.pure _) (calm_act trivial fun _ _ => trivial)

theorem calm_registerOwnOutput (ref : MessageRef) (T : TaskId) (effectId : Option EffectId) :
    Calm (registerOwnOutput ref T effectId : M o Unit) :=
  .bind (.check _) fun _ => .ite (.lift _) (calm_act trivial fun _ _ => trivial)

theorem calm_journalControlReply (obs : Observation) (text : String) (target : Option TaskId) :
    Calm (journalControlReply obs text target : M o Effect) := by
  refine .bind (calm_await calm_start) fun _ => .bind (.look _) fun _ => .ite (.lift _) <|
    .bind (.check _) fun _ => .bind (calm_act (fun _ no => nomatch no) fun _ _ => trivial) fun _ =>
    .bind (.check _) fun _ => .bind (calm_act trivial fun _ _ => trivial) fun _ => .bind (.lift _) fun _ =>
    .bind (.look _) fun existing => ?_
  cases existing with
  | some effect => exact .pure _
  | none => exact calm_execute _ _

/-! ## The host -/

theorem calm_refreshInvalidatedTask (status : TaskStatus) : Calm (refreshInvalidatedTask status : M o Unit) := by
  refine .bind (.look _) fun _ => .ite (.pure _) <| .bind (.look _) fun _ => .bind (.look _) fun _ =>
    .ite (.pure _) <| .bind (calm_act trivial fun _ _ => trivial) fun _ =>
    .bind (calm_await (calm_refreshContext _)) fun _ => .bind (calm_act trivial fun _ _ => trivial) fun _ =>
    .bind (.look _) fun failure => ?_
  cases failure with
  | some failure => exact .lift _
  | none => exact .pure _

theorem calm_refreshInvalidatedTasks : Calm (refreshInvalidatedTasks : M o Unit) :=
  .bind (.look _) fun _ => .each fun status _ => calm_refreshInvalidatedTask status

/-! ## The family -/

theorem calm_discard {α : Type} {m : M o α} (calm : Calm m) : Calm (discard m) := .bind calm fun _ => .pure _

/-- No operation asks for anything before it begins. -/
theorem calm_program (op : Op) : Calm (op.program o) := by
  cases op with
  | start => exact calm_start
  | ingest obs => exact calm_discard (calm_ingest obs)
  | poll => exact calm_discard calm_poll
  | cancel T => exact calm_discard (.bind (calm_await calm_start) fun _ => calm_applyCancellation T)
  | suspendTask T reason => exact .bind (calm_await calm_start) fun _ => calm_held T reason false
  | correct T instruction route =>
    exact calm_discard (.bind (calm_await calm_start) fun _ => .bind (.look _) fun _ =>
      applyCorrection_conduct fun refresh => nomatch refresh)
  | refreshContext T => exact calm_discard (calm_refreshContext T)
  | refreshAuthority T =>
    exact calm_discard (.bind (calm_await calm_start) fun _ => calm_prepareTaskAuthority T)
  | refreshInvalidatedTasks => exact calm_refreshInvalidatedTasks
  | executeEffect token request =>
    exact calm_discard (.bind (calm_await calm_start) fun _ => calm_execute token request)
  | journalControlReply obs text target => exact calm_discard (calm_journalControlReply obs text target)
  | registerAcknowledgement T effect => exact calm_registerAcknowledgement T effect
  | registerOwnOutput ref T effectId => exact calm_registerOwnOutput ref T effectId
  | issueToolContext binding => exact calm_discard (calm_issueToolContext binding)
  | issueExecutionContext context => exact calm_discard (calm_issueExecutionContext context)
  | revokeToolContext token => exact @calm_act o (.revokeToken token) trivial fun _ _ => trivial
  | execute token request => exact calm_discard (calm_execute token request)
  | executeBound token request => exact calm_discard (calm_executeBound token request)
  | executeDelivery token request => exact calm_discard (calm_executeDelivery token request)
  | recoverEffects => exact calm_recoverEffects
  | revokeTask T => exact calm_revokeTask T

/-- The process of an operation is safe from wherever it is begun. -/
theorem body_safe (op : Op) (i : Nat) (c : Instant o) (free : ¬(discipline o).taken i)
    (orderly : (discipline o).inv c) : Safe (discipline o) i (body o op) c :=
  (calm_program op i free).safe orderly trivial

/-- The worlds the agent can get to from a fresh store, by any choices. -/
def Reachable (o : Options) (w : World (agent o)) : Prop :=
  ∃ now policy, World.Leads (body o) (World.initial (State.boot now policy)) w

theorem Reachable.governed (reachable : Reachable o w) : w.Governed (discipline o) := by
  obtain ⟨now,policy,run⟩ := reachable
  have boot : (World.initial (S := agent o) (State.boot now policy)).Governed (discipline o) :=
    World.initial_governed (boot_orderly o now policy) fun _ => untaken
  exact boot.leads (discipline_sound o) body_safe run

theorem Reachable.leads (reachable : Reachable o w) (run : World.Leads (body o) w w') : Reachable o w':= by
  obtain ⟨now,policy,before⟩ := reachable
  exact ⟨now,policy,before.trans run⟩

theorem boot_reachable : Reachable .plain boot := ⟨0,{},.refl⟩

theorem Reachable.orderly {w : World (agent o)} (reachable : Reachable o w) : Orderly o w.core :=
  reachable.governed.inv

/-- A run of the agent, change by change. -/
theorem Reachable.changes (reachable : Reachable o w)
    (run : World.LeadsIf (body o) ok w w') : Changes (discipline o) ok w.core w'.core :=
  (reachable.governed.leadsIf (discipline_sound o) body_safe run).2

end Neurobro.Agent
