import Neurobro.Agent.OperationsConduct

/-! Authority at the moment of dispatch: it is the stored one, it is still good, and no
withdrawal has come after the token it is used under. -/
namespace Neurobro.Agent

open Coop

variable {o : Options}

theorem ToolContext.Same.stamp {a b : ToolContext} (same : a.Same b) : a.stamp = b.stamp := by
  simp [ToolContext.stamp,same.taskId,same.grantId,same.grantRevision]

/-- The stamp of a dispatch is live in the ledger of grants. -/
theorem Authorized.live {s : State} {token : Token} {effect : Effect} (authorized : Authorized o token effect s) :
    ∃ record, s.store.contexts.get token = some record ∧ s.authority.ledger.Live record.context.stamp := by
  obtain ⟨record,intent,grant,found,same,current,_,named,id,revision,unrevoked,_⟩ := authorized.current
  refine ⟨record,found,?_⟩
  rw [same.stamp]
  have task : s.authority.tasks.get effect.taskId = some intent := current.1
  have granted : s.authority.grants.get effect.grantId = some grant := named ▸ current.2
  refine ⟨?_,?_,?_⟩
  · simp [Authority.ledger,ToolContext.stamp,task,named]
  · simp [Authority.ledger,ToolContext.stamp,granted,revision]
  · rintro ⟨grant',stored,revoked⟩
    cases Option.some.inj (granted.symm.trans stored)
    simp [unrevoked] at revoked

/-- Withdrawn tokens dispatch nothing, and what is dispatched is authorized right then. -/
theorem dispatch_authorized {w : World (agent o)} (reachable : Reachable o w) {i : Nat} {effect : Effect}
    {token : Token} (calling : w.calling = some (i,.dispatch effect token)) :
    (∀ context, ¬w.core.Followed (issues token context) (withdraws context.taskId)) ∧
    ∃ intent grant, w.core.state.store.tasks.get effect.taskId = some intent ∧
      w.core.state.store.grants.get effect.grantId = some grant ∧ intent.revision = effect.intentRevision ∧
      intent.grantId = effect.grantId ∧ grant.revision = effect.grantRevision ∧ grant.revokedAt = none ∧
      w.core.state.passed grant.expiresAt = false ∧ permits o grant effect.capability effect.resource := by
  have may := reachable.governed.calling calling
  have authorized : Authorized o token effect w.core.state := may.2.2
  constructor
  · intro context followed
    obtain ⟨_,⟨record,found,same⟩,_⟩ := reachable.orderly.issued token context followed.happened
    obtain ⟨record',found',live⟩ := authorized.live
    cases Option.some.inj (found.symm.trans found')
    exact (same.stamp ▸ reachable.orderly.withdrawn token context followed).not_live live
  · obtain ⟨_,intent,grant,_,_,current,revision,named,_,grantRevision,unrevoked,unexpired,permitted,_⟩ :=
      authorized.current
    exact ⟨intent,grant,current.1,named ▸ current.2,revision,named,grantRevision,unrevoked,unexpired,permitted⟩

def dispatching (w : World (agent .plain)) : Bool :=
  match w.calling with
  | some (_,.dispatch _ _) => true
  | _ => false

/-- A reply on the point of being dispatched, under a grant that is not revoked. -/
theorem dispatch_authorized_reply : ∃ (w : World (agent .plain)) (i : Nat) (effect : Effect) (token : Token)
    (grant : Grant), w.calling = some (i,.dispatch effect token) ∧
      (∀ context, ¬w.core.Followed (issues token context) (withdraws context.taskId)) ∧
      w.core.state.store.grants.get effect.grantId = some grant ∧ grant.revokedAt = none := by
  have played : (play [.invoke (.journalControlReply (spoken "7" "b" "") "b" none),.resume 1 capable] boot
      23).any dispatching := by decide +kernel
  obtain ⟨w,reached,held⟩ := play_any played
  unfold dispatching at held
  split at held
  · rename_i i effect token calling
    obtain ⟨withdrawn,_,grant,_,granted,_,_,_,unrevoked,_⟩ :=
      dispatch_authorized (boot_reachable.leads reached) calling
    exact ⟨w,i,effect,token,grant,calling,withdrawn,granted,unrevoked⟩
  · cases held

end Neurobro.Agent
