import Neurobro.Agent.Lasting

/-! The broker keeps the discipline: whoever dispatches has just claimed the record
under authority that is still current. -/
namespace Neurobro.Agent

open Coop

variable {o : Options}

abbrev Calm (m : M o α) : Prop := Quiet (discipline o) m

theorem untaken : ¬(discipline o).taken i := fun taken => taken

/-- A commit whose guards ask nothing. -/
theorem calm_commit (may : ∀ i (c : Instant o), cmd.Wellformed ∧ Guard i cmd c) : Calm (commit cmd : M o cmd.Result):= .act (discipline_sound o) fun i c _ => may i c

/-- A call whose guards ask nothing. -/
theorem calm_ask (may : ∀ i (c : Instant o), CallGuard i q c) : Calm (ask q : M o q.Reply) :=
  .call (discipline_sound o) fun i c _ => may i c

theorem calm_await {m : M o α} (h : Calm m) : Calm (Async.await m) := .await (discipline_sound o) h

/-- A commit that needs no guard. -/
theorem calm_act {cmd : Cmd} (formed : cmd.Wellformed) (free : ∀ i (c : Instant o), Guard i cmd c) :
    Calm (commit cmd : M o cmd.Result) := calm_commit fun i c => ⟨formed,free i c⟩

theorem calm_settle (effect : Effect) (result : EffectResult) : Calm (settle effect result : M o Effect) := by
  refine .bind (calm_act trivial fun _ _ => trivial) fun _ => .bind (.lift _) fun settled => ?_
  split
  · exact .bind (calm_act trivial fun _ _ => trivial) fun _ => .pure _
  · exact .pure _

/-! ## Execution -/

theorem validateResource_ok {s : State} {context : ToolContext}
    (h : s.validateResource o context capability resource = .ok ()) :
    ∃ intent, s.store.tasks.get context.taskId = some intent ∧
      s.originResourceAllowed o intent capability resource := by
  obtain ⟨intent,task,h⟩ := bind_ok h
  refine ⟨intent,State.requireTask_ok task,?_⟩
  split at h
  · contradiction
  · rename_i allowed
    simpa using allowed

/-- What a prepared execution knows of the store it was prepared in. -/
structure Prepared (o : Options) (token : Token) (request : EffectRequest) (prepared : PreparedEffect)
    (s : State) : Prop where
  context : ∃ record, s.store.contexts.get token = some record ∧ prepared.context = record.context
  current : ∃ intent grant, s.validateContext prepared.context = .ok (intent,grant) ∧
    permits o grant request.capability request.resource ∧
    s.originResourceAllowed o intent request.capability request.resource

theorem prepareEffect_ok {s : State} {token : Token} {request : EffectRequest} {prepared : PreparedEffect}
    (h : s.prepareEffect o token request = .ok prepared) : Prepared o token request prepared s := by
  unfold State.prepareEffect at h
  split at h
  · contradiction
  · obtain ⟨record,resolved,h⟩ := bind_ok h
    obtain ⟨⟨intent,grant⟩,valid,h⟩ := bind_ok h
    split at h
    · contradiction
    · rename_i permitted
      obtain ⟨_,allowed,h⟩ := bind_ok h
      obtain ⟨_,_,h⟩ := bind_ok h
      obtain ⟨payload,_,h⟩ := bind_ok h
      obtain ⟨id,_,h⟩ := bind_ok h
      have context : prepared.context = record.context := by
        split at h
        · cases h; rfl
        · split at h
          · contradiction
          · cases h; rfl
      obtain ⟨actual,task,origin⟩ := validateResource_ok allowed
      have same : actual = intent :=
        Option.some.inj (task.symm.trans (State.validateContext_ok valid).1)
      refine ⟨⟨record,(State.resolve_ok resolved).1,context⟩,intent,grant,context ▸ valid,?_,same ▸ origin⟩
      simpa using permitted

/-- A claim that goes through leaves the record ready for its one dispatch. -/
theorem claim_clears (orderly : Orderly o c) {token : Token}
    {request : EffectRequest} {prepared : PreparedEffect} (ready : Prepared o token request prepared c.state)
    {effect : Effect}
    (claimed : (exec o (.claim token prepared.context request prepared.id prepared.payloadHash) c.state).1 =
      .ok effect) :
    CallGuard i (.dispatch effect token)
      (c.act i (.claim token prepared.context request prepared.id prepared.payloadHash)) := by
  obtain ⟨_,new,made,after⟩ := State.claim_ok (transact_ok claimed)
  have named : effect.id = prepared.id := by rw [made]; rfl
  have state : (c.act i (.claim token prepared.context request prepared.id prepared.payloadHash)).state =
      { c.state with store.effects := c.state.store.effects.put prepared.id effect } := after
  refine ⟨fun dispatched => ?_,?_,?_⟩
  · have stored := orderly.dispatched _ (dispatches_act.mp dispatched)
    rw [named,new] at stored
    contradiction
  · rw [state,named]
    show ((c.state.store.effects.put prepared.id effect).get prepared.id).isSome
    rw [Table.get_put_same]
    rfl
  · obtain ⟨record,found,same⟩ := ready.context
    obtain ⟨intent,grant,valid,permitted,origin⟩ := ready.current
    obtain ⟨task,granted,named',_,revision,grantRevision,unrevoked,unexpired⟩ := State.validateContext_ok valid
    have stamped : record.context.Same
        ⟨effect.taskId,effect.intentRevision,effect.grantId,effect.grantRevision,""⟩ := by
      rw [made,← same]
      exact ⟨rfl,rfl,rfl,rfl⟩
    have keyed := orderly.authority.grant _ _ granted
    rw [state]
    refine ⟨record,intent,grant,found,stamped,⟨?_,?_⟩,?_,?_,?_,?_,unrevoked,unexpired,?_,?_⟩
    · rw [made]; exact task
    · rw [named',keyed.1]; exact granted
    · rw [made]; exact revision
    · rw [made]; exact named'.trans keyed.1
    · rw [made]; exact keyed.1
    · rw [made]; exact grantRevision
    · rw [made]; exact permitted
    · rw [made]; exact origin

/-- Entering flight is noted in memory alone. -/
theorem enterFlight_clears {token : Token} {effect : Effect}
    (cleared : CallGuard i (.dispatch effect token) c) :
    CallGuard i (.dispatch effect token) (c.act i (.enterFlight effect.id)) :=
  ⟨fun dispatched => cleared.1 (dispatches_act.mp dispatched),cleared.2.1,⟨cleared.2.2.current⟩⟩

theorem calm_executeBound (token : Token) (request : EffectRequest) :
    Calm (executeBound token request : M o Effect) := by
  intro i _
  refine .seq (Q := onOk fun prepared c => Prepared o token request prepared c.state)
    (.check fun c _ _ => ?_) fun prepared => ?_
  · cases ready : c.state.prepareEffect o token request with
    | error e => trivial
    | ok prepared => exact prepareEffect_ok ready
  · cases existing : prepared.existing with
    | some _ => simp only; exact .pure fun _ _ _ => trivial
    | none =>
      simp only
      -- From the reading to the call nothing else can run: the claim decides.
      refine .seq (Q := onOk fun r c => ∀ effect, r = .ok effect → CallGuard i (.dispatch effect token) c)
        (.act (discipline_sound o) (fun _ _ _ => ⟨trivial,trivial⟩) fun c orderly ready _ => ?_) fun r => ?_
      · exact fun _ claimed => claim_clears orderly ready claimed
      · refine .seq (Q := onOk fun effect => CallGuard i (.dispatch effect token))
          (.lift fun c _ cleared => ?_) fun effect => ?_
        · cases r with
          | error e => trivial
          | ok effect => exact cleared effect rfl
        · refine .seq (Q := onOk fun _ => CallGuard i (.dispatch effect token))
            (.act (discipline_sound o) (fun _ _ _ => ⟨trivial,trivial⟩) fun c _ cleared _ =>
              enterFlight_clears cleared) fun _ => ?_
          refine .seq (Q := onOk fun _ _ => True) (.call (discipline_sound o) .top (fun _ _ cleared => cleared)
            (fun _ _ _ => trivial) fun _ _ _ _ => trivial) fun result => ?_
          have rest : Calm (do
              let _ ← commit (.leaveFlight effect.id)
              settle effect (settlement result) : M o Effect) :=
            .bind (calm_act trivial fun _ _ => trivial) fun _ => calm_settle _ _
          exact rest i untaken

theorem calm_execute (token : Token) (request : EffectRequest) : Calm (execute token request : M o Effect) :=
  .ite (.lift _) (calm_executeBound token request)

theorem calm_executeDelivery (token : Token) (request : EffectRequest) :
    Calm (executeDelivery token request : M o Effect) :=
  .bind (.check _) fun _ => calm_executeBound token request

/-! ## The rest of the broker -/

theorem calm_revokeTask (T : TaskId) : Calm (revokeTask T : M o Unit) :=
  .bind (.look _) fun _ => .each fun _ _ => .ite (calm_act trivial fun _ _ => trivial) (.pure _)

theorem calm_recoverEffect (stored : Effect) : Calm (recoverEffect stored : M o Unit) :=
  .bind (.look _) fun _ => .ite (.pure _) <|
    .bind (calm_act trivial fun _ _ => trivial) fun _ =>
    .bind (calm_ask fun _ _ => trivial) fun _ => .bind (calm_settle _ _) fun _ => .pure _

theorem calm_recoverEffects : Calm (recoverEffects : M o Unit) :=
  .bind (.look _) fun _ => .each fun stored _ => calm_recoverEffect stored

theorem calm_issueToolContext (binding : RunBinding) : Calm (issueToolContext binding : M o Token) :=
  .bind (.check _) fun _ => .bind (calm_act trivial fun _ _ => trivial) fun _ => .lift _

theorem calm_issueExecutionContext (context : ToolContext) :
    Calm (issueExecutionContext context : M o Token) :=
  .bind (.check _) fun _ => .bind (calm_act trivial fun _ _ => trivial) fun _ => .lift _

end Neurobro.Agent
