import Neurobro.Data.Results
import Neurobro.OwnerControls.Service

/-! What a commit can do to the registry. A transaction that goes through has checked the
rows it writes; the one that throws changes nothing. -/
namespace Neurobro.OwnerControls

open Agent (Err Time MessageRef refKey)

variable {o : Options} {s s' : State}

theorem proposal_ok {id : Name} (h : s.proposal id = .ok p) : s.proposals.get id = some p := by
  unfold State.proposal at h
  split at h
  · rename_i found
    rw [found,Except.ok.inj h]
  · contradiction

/-! ## Transactions that go through -/

/-- A proposal under a new name. -/
structure Opens (s : State) (p : OwnerScopeProposal) (s' : State) : Prop where
  named : p.id = s.fresh
  pending : p.state = .pending
  unpublished : p.publication = none
  cardless : p.cardRef = none
  receiptless : p.receiptId = none
  after : s' = { s with fresh := s.fresh + 1 }.putProposal p

theorem createProposal_ok {context : Jobs.ToolContext}
 (h : s.createProposal o context subject title expiresAt = .ok (p,s')) : Opens s p s' := by
  unfold State.createProposal at h
  split at h
  · contradiction
  · obtain ⟨_,h⟩ := guard_eq_ok.mp h
    cases Except.ok.inj h
    exact ⟨rfl,rfl,rfl,rfl,rfl,rfl⟩

theorem proposeSources_ok {input : SourceScopeProposalInput} {sources : List ResolvedOwnerPeer}
 (h : s.proposeSources o input sources = .ok (p,s')) : Opens s p s' := by
  obtain ⟨_,_,h⟩ := bind_ok h
  exact createProposal_ok h

theorem proposeApproval_ok {input : OutreachApprovalProposalInput}
    (h : s.proposeApproval o input = .ok (p,s')) : Opens s p s' := by
  obtain ⟨_,_,h⟩ := bind_ok h
  obtain ⟨_,_,h⟩ := bind_ok h
  exact createProposal_ok h

/-- The stored proposal gains a card, the same message it may have had. -/
structure Cards (s : State) (id : Name) (ref : MessageRef) (s' : State) : Prop where
  stored : ∃ p, s.proposals.get id = some p ∧ (∀ card, p.cardRef = some card → sameRef card ref) ∧
    s' = s.putProposal { p with cardRef := some ref }

theorem registerCard_ok {id : Name} (h : s.registerCard o id ref = .ok (a,s')) : Cards s id ref s':= by
  obtain ⟨p,found,h⟩ := bind_ok h
  obtain ⟨_,h⟩ := guard_eq_ok.mp h
  obtain ⟨same,h⟩ := guard_eq_ok.mp h
  cases Except.ok.inj h
  refine ⟨p,proposal_ok found,fun card carded => ?_,rfl⟩
  simpa [carded] using same

/-- What a later publication owes an earlier one. -/
def OwnerProposalPublication.Follows (next old : OwnerProposalPublication) : Prop :=
  next.keeps old ∧ (old.state = .verified → next.state = .verified)

structure Publishes (s : State) (id : Name) (publication : OwnerProposalPublication) (s' : State) : Prop where
  stored : ∃ p, s.proposals.get id = some p ∧ (∀ old, p.publication = some old → publication.Follows old) ∧
    s' = s.putProposal { p with publication := some publication }

theorem recordPublication_ok {id : Name}
    (h : s.recordPublication id publication = .ok (a,s')) : Publishes s id publication s' := by
  obtain ⟨p,found,h⟩ := bind_ok h
  obtain ⟨kept,h⟩ := guard_eq_ok.mp h
  obtain ⟨verified,h⟩ := guard_eq_ok.mp h
  cases Except.ok.inj h
  refine ⟨p,proposal_ok found,fun old published => ⟨?_,fun was => ?_⟩,rfl⟩
  · simpa [published] using kept
  · simpa [published,was] using verified

/-- What held of the stored proposal and of the owner's message when a decision went through. -/
structure Confirms (o : Options) (s : State) (m : Observation) (e : OwnerSourceEvidence) (current : OwnerScopeProposal) :
    Prop where
  stored : s.proposals.get current.id = some current
  pending : current.state = .pending
  unexpired : s.now < current.expiresAt
  fresh : s.commandFresh o m = true
  recorded : s.sourceActive e = true
  authority : s.validateProposalAuthority current = .ok ()

/-- Rows stand under their own names. -/
structure Keyed (s : State) : Prop where
  proposals : ∀ {id p}, s.proposals.get id = some p → p.id = id
  receipts : ∀ {id r}, s.receipts.get id = some r → r.id = id
  plans : ∀ {id p}, s.plans.get id = some p → p.id = id
  drawn : ∀ {id p}, s.proposals.get id = some p → id < s.fresh

theorem confirms_of {id : Name} {current : OwnerScopeProposal}
    (keyed : Keyed s) (found : s.proposal id = .ok current) (ok : s.confirmable o current m e = true)
    (authority : s.validateProposalAuthority current = .ok ()) : current.id = id ∧ Confirms o s m e current := by
  have stored := proposal_ok found
  have named := keyed.proposals stored
  simp only [State.confirmable,Bool.and_eq_true,decide_eq_true_eq] at ok
  obtain ⟨⟨⟨pending,unexpired⟩,fresh⟩,recorded⟩ := ok
  exact ⟨named,by rw [named,stored],pending,unexpired,fresh,recorded,authority⟩

/-- A batch was approved: its receipt is stored, and its proposal is settled. -/
structure Grants (o : Options) (s : State) (m : Observation) (e : OwnerSourceEvidence) (p : OwnerScopeProposal)
    (batch : Batch) (selected : List String) (result : OwnerEventResult) (s' : State) : Prop where
  current : ∃ current, current.id = p.id ∧ Confirms o s m e current ∧
    s' = { s with
      fresh := s.fresh + 1
      receipts := s.receipts.put s.fresh (s.newReceipt o e p batch selected) }.putProposal
        { current with
          state := .accepted, receiptId := some s.fresh, selectedRecipientIds := some selected }
  receipt : result.receipt = some (s.newReceipt o e p batch selected)

theorem acceptOutreach_ok
    {selected : List String} {result : OwnerEventResult} (keyed : Keyed s)
    (h : s.acceptOutreach o m e p batch selected = .ok (result,s')) : Grants o s m e p batch selected result s' := by
  obtain ⟨current,found,h⟩ := bind_ok h
  obtain ⟨ok,h⟩ := guard_eq_ok.mp h
  obtain ⟨_,authority,h⟩ := bind_ok h
  cases Except.ok.inj h
  obtain ⟨named,confirms⟩ := confirms_of keyed found (by simpa using ok) authority
  exact ⟨⟨current,named,confirms,rfl⟩,rfl⟩

/-- Sources were accepted: their plan is stored and bound, and the proposal is settled. -/
structure Accepts (o : Options) (s : State) (m : Observation) (e : OwnerSourceEvidence) (id : Name)
    (result : OwnerEventResult) (s' : State) : Prop where
  current : ∃ current peers monitor, current.id = id ∧ Confirms o s m e current ∧
    current.subject = .sources peers monitor ∧ result.disposition = .accepted ∧
    result.proposal = some { current with state := .accepted } ∧
    s' = (s.adoptPlan o current.context.taskId (State.proposalPlan o current e peers monitor)).putProposal
      { current with state := .accepted }

theorem acceptSources_ok {id : Name} {result : OwnerEventResult}
    (keyed : Keyed s) (h : s.acceptSources o m e id = .ok (result,s')) :
    (result = State.overdue ∧ s' = s) ∨ Accepts o s m e id result s' := by
  obtain ⟨current,found,h⟩ := bind_ok h
  split at h
  · cases Except.ok.inj h
    exact .inl ⟨rfl,rfl⟩
  · rename_i ok
    obtain ⟨_,authority,h⟩ := bind_ok h
    split at h
    · contradiction
    · rename_i peers monitor subject
      cases Except.ok.inj h
      obtain ⟨named,confirms⟩ := confirms_of keyed found (by simpa using ok) authority
      exact .inr ⟨current,peers,monitor,named,confirms,subject,rfl,rfl,rfl⟩

/-! ## What binding a plan adds -/

/-- A policy that a plan gives a peer. -/
structure MonitorPolicy.Stems (plan : SourcePlan) (peer : ResolvedOwnerPeer) (policy : MonitorPolicy) : Prop where
  named : policy.sourcePeerId = peer.peerId
  allowed : plan.revokedPeers.contains peer.peerId = false
  source : policy.ownerSource = plan.ownerSource

theorem bindPeer_policies (intent : TaskIntent) (plan : SourcePlan) (peer : ResolvedOwnerPeer) :
    ∃ policies, s.bindPeer o intent plan peer = { s with policies } ∧ ∀ {id policy},
      policies.get id = some policy → s.policies.get id = some policy ∨ policy.Stems plan peer := by
  unfold State.bindPeer
  by_cases taken : (plan.revokedPeers.contains peer.peerId ||
      (s.policies.get (s.newPolicy o intent plan peer).id).isSome) = true
  · exact ⟨s.policies,if_pos taken,fun found => .inl found⟩
  · have free := taken
    refine ⟨_,if_neg taken,fun {id policy} found => ?_⟩
    rw [Table.get_put] at found
    split at found
    · cases Option.some.inj found
      simp only [Bool.or_eq_true,not_or,Bool.not_eq_true] at free
      exact .inr ⟨rfl,free.1,rfl⟩
    · exact .inl found

theorem bindPeers_policies (intent : TaskIntent) (plan : SourcePlan) (peers : List ResolvedOwnerPeer) :
    ∃ policies, peers.foldl (fun s peer => s.bindPeer o intent plan peer) s = { s with policies } ∧
      ∀ {id policy}, policies.get id = some policy →
        s.policies.get id = some policy ∨ ∃ peer ∈ peers, policy.Stems plan peer := by
  induction peers generalizing s with
  | nil => exact ⟨s.policies,rfl,fun found => .inl found⟩
  | cons peer rest ih =>
    obtain ⟨first,bound,added⟩ := bindPeer_policies (o := o) (s := s) intent plan peer
    obtain ⟨policies,others,more⟩ := ih (s := { s with policies := first })
    refine ⟨policies,?_,fun {id policy} found => ?_⟩
    · rw [List.foldl_cons,bound,others]
    · rcases more found with old | ⟨other,member,stems⟩
      · rcases added old with older | stems
        · exact .inl older
        · exact .inr ⟨peer,List.mem_cons_self,stems⟩
      · exact .inr ⟨other,List.mem_cons_of_mem _ member,stems⟩

/-- The stored plan, bound or not, and policies for its peers. -/
theorem adoptPlan_adds (taskId : String) (plan : SourcePlan) :
    ∃ plan' policies, s.adoptPlan o taskId plan = { s with plans := s.plans.put plan.id plan', policies } ∧
      (∃ bound, plan' = { plan with boundTaskId := bound }) ∧ ∀ {id policy}, policies.get id = some policy →
        s.policies.get id = some policy ∨ ∃ peer ∈ plan.peers, policy.Stems plan peer := by
  have stored : s.putPlan plan = { s with plans := s.plans.put plan.id plan, policies := s.policies } := rfl
  unfold State.adoptPlan
  split
  · rename_i intent _
    unfold State.bindPlan
    split
    · split
      · obtain ⟨policies,bound,added⟩ := bindPeers_policies (o := o) (s := (s.putPlan plan).bindTask plan intent.id)
          intent plan plan.peers
        refine ⟨_,policies,?_,⟨some intent.id,rfl⟩,added⟩
        simp only [bound]
        simp [State.bindTask,State.putPlan]
      · obtain ⟨policies,bound,added⟩ := bindPeers_policies (o := o) (s := s.putPlan plan) intent plan plan.peers
        exact ⟨plan,policies,by simp only [bound]; rfl,⟨plan.boundTaskId,rfl⟩,added⟩
    · exact ⟨plan,s.policies,stored,⟨plan.boundTaskId,rfl⟩,fun found => .inl found⟩
  · exact ⟨plan,s.policies,stored,⟨plan.boundTaskId,rfl⟩,fun found => .inl found⟩

/-! ## Every command -/

/-- Every way a command can change the registry. -/
inductive Step (o : Options) (s : State) : Cmd → State → Prop
  | none {cmd : Cmd} : Step o s cmd s
  | withdrawn (ref : MessageRef) (reason : String) :
      Step o s (.revokeOwnerSource ref reason) (s.revokeOwnerSource ref reason)
  | unsubscribed (peerId reason : String) (m : Option Observation) :
      Step o s (.revokeSource peerId reason m) (s.revokeSource peerId reason)
  | recorded (e : OwnerSourceEvidence) :
      Step o s (.putSource e) { s with sources := s.sources.put (refKey e.ref) ⟨e,.none⟩ }
  | noted (key : String) (result : OwnerEventResult) :
      Step o s (.putEvent key result) { s with events := s.events.put key result }
  | planned (plan : SourcePlan) (m : Observation) : Step o s (.putPlan plan m) (s.putPlan plan)
  | bound (plan : SourcePlan) (taskId : String) : Step o s (.bindTask plan taskId) (s.bindTask plan taskId)
  | policed (intent : TaskIntent) (plan : SourcePlan) (peer : ResolvedOwnerPeer) :
      Step o s (.bindPeer intent plan peer) (s.bindPeer o intent plan peer)
  | opened {cmd : Cmd} {p : OwnerScopeProposal} {s' : State} (opens : Opens s p s') : Step o s cmd s'
  | carded {id : Name} {ref : MessageRef} {s' : State} (cards : Cards s id ref s') : Step o s (.registerCard id ref) s'
  | published {id : Name} {publication : OwnerProposalPublication} {s' : State}
      (publishes : Publishes s id publication s') : Step o s (.recordPublication id publication) s'
  | rejected (p : OwnerScopeProposal) : Step o s (.rejectProposal p) (s.putProposal { p with state := .rejected })
  | accepted {m : Observation} {e : OwnerSourceEvidence} {id : Name} {result : OwnerEventResult} {s' : State}
      (ran : (exec o (.acceptSources m e id) s).1 = .ok result)
      (accepts : Accepts o s m e id result s') : Step o s (.acceptSources m e id) s'
  | granted {m : Observation} {e : OwnerSourceEvidence} {p : OwnerScopeProposal} {batch : Batch}
      {selected : List String} {result : OwnerEventResult} {s' : State}
      (ran : (exec o (.acceptOutreach m e p batch selected) s).1 = .ok result)
      (grants : Grants o s m e p batch selected result s') : Step o s (.acceptOutreach m e p batch selected) s'

theorem transaction_step {α : Type} {r : Except Err (α × State)}
    (h : ∀ a s', r = .ok (a,s') → Step o s cmd s') : Step o s cmd (transaction s r).2 := by
  unfold transaction
  split
  · exact h _ _ rfl
  · exact .none

theorem exec_step (keyed : Keyed s) (cmd : Cmd) : Step o s cmd (exec o cmd s).2 := by
  cases cmd with
  | revokeOwnerSource ref reason => exact .withdrawn ref reason
  | revokeSource peerId reason m => exact .unsubscribed peerId reason m
  | putSource e => exact .recorded e
  | putEvent key result => exact .noted key result
  | putPlan plan m => exact .planned plan m
  | bindTask plan taskId => exact .bound plan taskId
  | bindPeer intent plan peer => exact .policed intent plan peer
  | proposeSources input sources => exact transaction_step fun _ _ h => .opened (proposeSources_ok h)
  | proposeApproval input => exact transaction_step fun _ _ h => .opened (proposeApproval_ok h)
  | registerCard id ref => exact transaction_step fun _ _ h => .carded (registerCard_ok h)
  | recordPublication id publication => exact transaction_step fun _ _ h => .published (recordPublication_ok h)
  | rejectProposal p => exact .rejected p
  | acceptSources m e id =>
    apply transaction_step
    intro result s' h
    rcases acceptSources_ok keyed h with ⟨_,rfl⟩ | accepts
    · exact .none
    · refine .accepted ?_ accepts
      show (transaction s (s.acceptSources o m e id)).1 = _
      rw [h]
      rfl
  | acceptOutreach m e p batch selected =>
    apply transaction_step
    intro result s' h
    refine .granted ?_ (acceptOutreach_ok keyed h)
    show (transaction s (s.acceptOutreach o m e p batch selected)).1 = _
    rw [h]
    rfl

/-! ## Rows under their names -/

theorem putProposal_get (p : OwnerScopeProposal) (id : Name) :
    (s.putProposal p).proposals.get id = if id = p.id then some p else s.proposals.get id := Table.get_put _ _ _ _

theorem Keyed.putProposal {p : OwnerScopeProposal} (keyed : Keyed s) (drawn : p.id < s.fresh) : Keyed (s.putProposal p) := by
  refine ⟨fun {id q} found => ?_,keyed.receipts,keyed.plans,fun {id q} found => ?_⟩ <;> rw [putProposal_get] at found <;>
    split at found
  · rename_i same
    rw [same,Option.some.inj found]
  · exact keyed.proposals found
  · rename_i same
    exact same ▸ drawn
  · exact keyed.drawn found

theorem Keyed.withPlans {plans : Table String SourcePlan} {policies : Table String MonitorPolicy} (keyed : Keyed s)
    (named : ∀ {id p}, plans.get id = some p → p.id = id) : Keyed { s with plans, policies } :=
  ⟨keyed.proposals,keyed.receipts,named,keyed.drawn⟩

theorem put_named {plan plan' : SourcePlan} (keyed : Keyed s) (same : plan'.id = plan.id) {id : String} {p : SourcePlan}
    (found : (s.plans.put plan.id plan').get id = some p) : p.id = id := by
  rw [Table.get_put] at found
  split at found
  · rename_i here
    rw [← Option.some.inj found,same,here]
  · exact keyed.plans found

@[simp] theorem withdraw_id (ref : MessageRef) (now : Time) (plan : SourcePlan) : (plan.withdraw ref now).id = plan.id := by
  unfold SourcePlan.withdraw
  split <;> rfl

@[simp] theorem revokePeer_id (peerId : String) (plan : SourcePlan) : (plan.revokePeer peerId).id = plan.id := by
  unfold SourcePlan.revokePeer
  split <;> rfl

theorem mapRows_named {K V : Type} [DecidableEq K] {t : Table K V} {f : V → V} {name : V → K}
    (same : ∀ v, name (f v) = name v) (named : ∀ {k v}, t.get k = some v → name v = k) {k : K} {v : V}
    (found : (t.mapRows f).get k = some v) : name v = k := by
  rw [Table.get_mapRows] at found
  obtain ⟨old,before,rfl⟩ := Option.map_eq_some_iff.mp found
  rw [same,named before]

/-- Rows stay under their names; what a rejection writes back must be known. -/
theorem Keyed.step {cmd : Cmd} (keyed : Keyed s) (step : Step o s cmd s')
    (known : ∀ p, cmd = .rejectProposal p → ∃ stored, s.proposals.get p.id = some stored) : Keyed s' := by
  cases step with
  | none => exact keyed
  | withdrawn ref reason =>
    refine ⟨keyed.proposals,mapRows_named (fun r => ?_) keyed.receipts,
      mapRows_named (fun plan => withdraw_id _ _ plan) keyed.plans,keyed.drawn⟩
    unfold OwnerApprovalReceipt.withdraw
    split <;> rfl
  | unsubscribed peerId reason m =>
    exact ⟨keyed.proposals,keyed.receipts,mapRows_named (fun plan => revokePeer_id _ plan) keyed.plans,keyed.drawn⟩
  | recorded e => exact ⟨keyed.proposals,keyed.receipts,keyed.plans,keyed.drawn⟩
  | noted key result => exact ⟨keyed.proposals,keyed.receipts,keyed.plans,keyed.drawn⟩
  | planned plan m => exact keyed.withPlans (put_named keyed rfl)
  | bound plan taskId => exact keyed.withPlans (put_named keyed rfl)
  | policed intent plan peer =>
    obtain ⟨policies,after,_⟩ := bindPeer_policies (o := o) (s := s) intent plan peer
    rw [after]
    exact keyed.withPlans keyed.plans
  | @opened _ p _ opens =>
    rw [opens.after]
    have wider : Keyed { s with fresh := s.fresh + 1 } :=
      ⟨keyed.proposals,keyed.receipts,keyed.plans,fun found => Nat.lt_succ_of_lt (keyed.drawn found)⟩
    exact wider.putProposal (opens.named ▸ Nat.lt_succ_self _)
  | carded cards =>
    obtain ⟨p,found,_,rfl⟩ := cards.stored
    exact keyed.putProposal (keyed.proposals found ▸ keyed.drawn found)
  | published publishes =>
    obtain ⟨p,found,_,rfl⟩ := publishes.stored
    exact keyed.putProposal (keyed.proposals found ▸ keyed.drawn found)
  | rejected p =>
    obtain ⟨stored,found⟩ := known p rfl
    exact keyed.putProposal (keyed.drawn found)
  | accepted _ accepts =>
    obtain ⟨current,peers,monitor,_,confirms,_,_,_,rfl⟩ := accepts.current
    obtain ⟨plan',policies,after,⟨bound,rfl⟩,_⟩ := adoptPlan_adds (o := o) (s := s) current.context.taskId
      (State.proposalPlan o current _ peers monitor)
    rw [after]
    apply Keyed.putProposal
    · apply keyed.withPlans
      apply put_named keyed
      rfl
    · exact keyed.drawn confirms.stored
  | granted _ grants =>
    obtain ⟨current,_,confirms,rfl⟩ := grants.current
    have wider : ∀ receipt : OwnerApprovalReceipt, receipt.id = s.fresh →
        Keyed { s with fresh := s.fresh + 1, receipts := s.receipts.put s.fresh receipt } := by
      intro receipt named
      refine ⟨keyed.proposals,fun {id r} found => ?_,keyed.plans,fun found => Nat.lt_succ_of_lt (keyed.drawn found)⟩
      rw [Table.get_put] at found
      split at found
      · rename_i same
        rw [same,← Option.some.inj found,named]
      · exact keyed.receipts found
    exact (wider _ rfl).putProposal (Nat.lt_succ_of_lt (keyed.drawn confirms.stored))

end Neurobro.OwnerControls
