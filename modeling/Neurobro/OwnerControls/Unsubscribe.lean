import Neurobro.OwnerControls.Approvals

/-! Unsubscribing. A committed unsubscription withdraws every policy and every stored plan
of its peer, but a plan that is stored afterwards has not heard of it. The peer stays
withdrawn where plans are stored in the order in which the owner sent the messages. -/
namespace Neurobro.OwnerControls

open Coop
open Agent (Err Time MessageRef refKey)

variable {o : Options} {s s' : State} {peer : String} {sent : Time}

/-- An unsubscription of the peer, by a message sent at this time. -/
def unsubscribes (o : Options) (peer : String) (sent : Time) : Event (registry o) → Bool
  | .act _ (.revokeSource peerId _ (some m)) _ => peerId = peer && m.issuedAt o.host = some sent
  | _ => false

def sentLater (o : Options) (sent : Time) (m : Observation) : Bool := (m.issuedAt o.host).any (sent < ·)

/-- The sources of a proposal that was accepted. -/
def acceptedSources (r : Except Err OwnerEventResult) : List ResolvedOwnerPeer :=
  match r with
  | .ok ⟨.accepted,some ⟨_,.sources peers _,_,_,_,_,_,_,_,_,_⟩,_,_,_⟩ => peers
  | _ => []

/-- A later message observes or reads the peer, or accepts it as a source. -/
def instructsLater (o : Options) (peer : String) (sent : Time) : Event (registry o) → Bool
  | .act _ (.putPlan plan m) _ => plan.names peer && sentLater o sent m
  | .act _ (.acceptSources m _ _) r => (acceptedSources r).any (·.peerId = peer) && sentLater o sent m
  | _ => false

/-- The peer was unsubscribed, and no later message has asked for it since. -/
def unanswered (o : Options) (peer : String) (sent : Time) : History o → Bool
  | [] => false
  | x :: before => unsubscribes o peer sent x || (!instructsLater o peer sent x && unanswered o peer sent before)

/-- An unsubscription wins over every older instruction. -/
def UnsubscribeWins (o : Options) (c : Core (registry o)) : Prop :=
  ∀ peer sent, unanswered o peer sent c.trace = true → ∀ id policy, c.state.policies.get id = some policy →
    policy.sourcePeerId = peer → c.state.policyActive policy = false

/-- Plans are stored in order: an unsubscription of one of their peers that is still
unanswered was sent before the message they come from. -/
def InOrder (o : Options) : Cmd → Core (registry o) → Prop
  | .putPlan plan m,c => ∀ peer sent, plan.names peer = true → unanswered o peer sent c.trace = true →
      sentLater o sent m = true
  | .acceptSources m e id,c => ∀ current peers monitor, c.state.proposals.get id = some current →
      c.state.confirmable o current m e = true → current.subject = .sources peers monitor → ∀ peer sent,
      (peers.any fun p => p.peerId = peer) = true → unanswered o peer sent c.trace = true → sentLater o sent m = true
  | _,_ => True

/-- Nothing in the registry speaks for the peer any more. -/
structure Renounced (peer : String) (s : State) : Prop where
  policies : ∀ {id policy}, s.policies.get id = some policy → policy.sourcePeerId = peer → policy.state = .revoked
  plans : ∀ {id plan}, s.plans.get id = some plan → plan.names peer = true → peer ∈ plan.revokedPeers

/-! ## What keeps a peer renounced -/

@[simp] theorem revokeIf_peer (now : Time) (reason : String) (test : MonitorPolicy → Bool) (policy : MonitorPolicy) :
    (policy.revokeIf now reason test).sourcePeerId = policy.sourcePeerId := by
  unfold MonitorPolicy.revokeIf
  split <;> rfl

theorem revokeIf_revoked {now : Time} {reason : String} {policy : MonitorPolicy}
    (revoked : policy.state = .revoked) : (policy.revokeIf now reason test).state = .revoked := by
  unfold MonitorPolicy.revokeIf
  split
  · rfl
  · exact revoked

theorem revokeIf_met {now : Time} {reason : String} {test : MonitorPolicy → Bool}
    (met : test policy = true) : (policy.revokeIf now reason test).state = .revoked := by
  unfold MonitorPolicy.revokeIf
  cases state : policy.state with
  | active => simp [met,MonitorPolicy.revoke]
  | revoked => simp [state]

/-- Rows rewritten one by one, none of them speaking for the peer again. -/
theorem Renounced.mapped {policies : MonitorPolicy → MonitorPolicy} {plans : SourcePlan → SourcePlan}
    (policiesAfter : s'.policies = s.policies.mapRows policies) (plansAfter : s'.plans = s.plans.mapRows plans)
    (policy : ∀ {id p}, s.policies.get id = some p → (policies p).sourcePeerId = peer → (policies p).state = .revoked)
    (plan : ∀ {id p}, s.plans.get id = some p → (plans p).names peer = true → peer ∈ (plans p).revokedPeers) :
    Renounced peer s' := by
  constructor
  · intro id p found named
    rw [policiesAfter,Table.get_mapRows] at found
    obtain ⟨old,before,rfl⟩ := Option.map_eq_some_iff.mp found
    exact policy before named
  · intro id p found named
    rw [plansAfter,Table.get_mapRows] at found
    obtain ⟨old,before,rfl⟩ := Option.map_eq_some_iff.mp found
    exact plan before named

theorem Renounced.withdrawn (gone : Renounced peer s) (ref : MessageRef) (reason : String) :
    Renounced peer (s.revokeOwnerSource ref reason) := by
  apply Renounced.mapped rfl rfl
  · intro id p found named
    rw [revokeIf_peer] at named
    exact revokeIf_revoked (gone.policies found named)
  · intro id p found named
    have same : (p.withdraw ref s.now).peers = p.peers ∧ (p.withdraw ref s.now).revokedPeers = p.revokedPeers := by
      unfold SourcePlan.withdraw
      split <;> exact ⟨rfl,rfl⟩
    unfold SourcePlan.names at named
    rw [same.1] at named
    rw [same.2]
    exact gone.plans found named

theorem revokePeer_peers (other : String) (plan : SourcePlan) : (plan.revokePeer other).peers = plan.peers := by
  unfold SourcePlan.revokePeer
  split <;> rfl

theorem mem_revokePeer {other : String} {plan : SourcePlan} (h : peer ∈ plan.revokedPeers) :
    peer ∈ (plan.revokePeer other).revokedPeers := by
  unfold SourcePlan.revokePeer
  split
  · simp [h]
  · exact h

theorem Renounced.unsubscribed (gone : Renounced peer s) (other reason : String) :
    Renounced peer (s.revokeSource other reason) := by
  apply Renounced.mapped rfl rfl
  · intro id p found named
    rw [revokeIf_peer] at named
    exact revokeIf_revoked (gone.policies found named)
  · intro id p found named
    unfold SourcePlan.names at named
    rw [revokePeer_peers] at named
    exact mem_revokePeer (gone.plans found named)

/-- An unsubscription reaches every policy and every plan that is stored. -/
theorem revokeSource_renounces (s : State) (peer reason : String) : Renounced peer (s.revokeSource peer reason) := by
  apply Renounced.mapped rfl rfl
  · intro id p found named
    rw [revokeIf_peer] at named
    exact revokeIf_met (by simpa using named)
  · intro id p found named
    have same : (p.revokePeer peer).names peer = p.names peer := by
      unfold SourcePlan.names
      rw [revokePeer_peers]
    rw [same] at named
    unfold SourcePlan.revokePeer
    rw [if_pos named]
    simp

theorem Renounced.putPlan (gone : Renounced peer s) {plan : SourcePlan} (silent : plan.names peer = true → peer ∈ plan.revokedPeers) :
    Renounced peer (s.putPlan plan) := by
  refine ⟨gone.policies,fun {id p} found named => ?_⟩
  have put : (s.plans.put plan.id plan).get id = some p := found
  rw [Table.get_put] at put
  split at put
  · cases Option.some.inj put
    exact silent named
  · exact gone.plans put named

theorem names_of_mem {plan : SourcePlan} (member : p ∈ plan.peers) : plan.names p.peerId = true :=
  List.any_eq_true.mpr ⟨p,member,by simp⟩

/-- A stored plan that has heard of the unsubscription hides its peer. -/
theorem Renounced.backed (gone : Renounced peer s) {plan : SourcePlan} (backed : Backed plan s)
    (named : plan.names peer = true) : peer ∈ plan.revokedPeers := by
  obtain ⟨stored,found,peers,revoked,_⟩ := backed
  rw [← revoked]
  apply gone.plans found
  unfold SourcePlan.names at *
  rw [peers]
  exact named

/-- New policies of a plan that does not speak for the peer are not of the peer. -/
theorem Renounced.policed (gone : Renounced peer s) {policies : Table String MonitorPolicy} {plan : SourcePlan}
    (silent : plan.names peer = true → peer ∈ plan.revokedPeers)
    (added : ∀ {id policy}, policies.get id = some policy → s.policies.get id = some policy ∨
      ∃ p ∈ plan.peers, policy.Stems plan p) : Renounced peer { s with policies } := by
  refine ⟨fun {id policy} found named => ?_,gone.plans⟩
  rcases added found with old | ⟨p,member,stems⟩
  · exact gone.policies old named
  · have same : p.peerId = peer := stems.named.symm.trans named
    have hidden := silent (same ▸ names_of_mem member)
    have allowed := stems.allowed
    simp [same,hidden] at allowed

/-- A transaction about proposals leaves plans and policies alone. -/
theorem Renounced.frame (gone : Renounced peer s) (policies : s'.policies = s.policies) (plans : s'.plans = s.plans) :
    Renounced peer s' :=
  ⟨fun found => gone.policies (policies ▸ found),fun found => gone.plans (plans ▸ found)⟩

theorem Renounced.transaction {α : Type} (gone : Renounced peer s) {r : Except Err (α × State)}
    (h : ∀ a s', r = .ok (a,s') → s'.policies = s.policies ∧ s'.plans = s.plans) :
    Renounced peer (OwnerControls.transaction s r).2 := by
  unfold OwnerControls.transaction
  split
  · rename_i a s'
    obtain ⟨policies,plans⟩ := h a s' rfl
    exact gone.frame policies plans
  · exact gone

theorem Opens.frame (opens : Opens s p s') : s'.policies = s.policies ∧ s'.plans = s.plans := by
  rw [opens.after]
  exact ⟨rfl,rfl⟩

/-- An acceptance of sources that goes through names them in its result. -/
theorem acceptSources_result {id : Name} {result : OwnerEventResult}
    (accepts : Accepts o s m e id result s') : ∃ current peers monitor, s.proposals.get id = some current ∧
      s.confirmable o current m e = true ∧ current.subject = .sources peers monitor ∧
      acceptedSources (.ok result) = peers ∧
      s' = (s.adoptPlan o current.context.taskId (State.proposalPlan o current e peers monitor)).putProposal
        { current with state := .accepted } := by
  obtain ⟨current,peers,monitor,named,confirms,subject,disposition,proposal,after⟩ := accepts.current
  refine ⟨current,peers,monitor,named ▸ confirms.stored,?_,subject,?_,after⟩
  · simp [State.confirmable,confirms.pending,confirms.unexpired,confirms.fresh,confirms.recorded]
  · obtain ⟨_,_,_,_,_⟩ := result
    obtain ⟨_,_,_,_,_,_,_,_,_,_,_⟩ := current
    cases disposition
    cases proposal
    cases subject
    rfl

theorem Renounced.accepted (gone : Renounced peer s) {plan : SourcePlan}
    (silent : plan.names peer = true → peer ∈ plan.revokedPeers) :
    Renounced peer ((s.adoptPlan o taskId plan).putProposal p) := by
  obtain ⟨plan',policies,after,⟨bound,rfl⟩,added⟩ := adoptPlan_adds (o := o) (s := s) taskId plan
  rw [after]
  have policed := gone.policed silent added
  have stored : Renounced peer (State.putPlan { s with policies } { plan with boundTaskId := bound }) :=
    policed.putPlan silent
  exact ⟨stored.policies,stored.plans⟩

/-! ## Every run -/

/-- Unanswered unsubscriptions hold throughout the registry. -/
def Obeyed (o : Options) (c : Core (registry o)) : Prop :=
  ∀ peer sent, unanswered o peer sent c.trace = true → Renounced peer c.state

theorem unanswered_act {c : Core (registry o)}
    (h : unanswered o peer sent (c.act i cmd).trace = true) :
    unsubscribes o peer sent (.act i cmd (exec o cmd c.state).1) = true ∨
      (instructsLater o peer sent (.act i cmd (exec o cmd c.state).1) = false ∧ unanswered o peer sent c.trace = true) := by
  have split : (unsubscribes o peer sent (.act i cmd (exec o cmd c.state).1) ||
      (!instructsLater o peer sent (.act i cmd (exec o cmd c.state).1) && unanswered o peer sent c.trace)) = true := h
  simpa using split

theorem Obeyed.act {start : State} {c : Core (registry o)} {i : Nat} {cmd : Cmd} (obeyed : Obeyed o c)
    (kept : Kept o start c) (may : Permits o start i c cmd) (ordered : InOrder o cmd c) : Obeyed o (c.act i cmd) := by
  intro peer sent open_
  rcases unanswered_act open_ with unsubscribed | ⟨silent,before⟩
  · cases cmd with
    | revokeSource peerId reason m =>
      cases m with
      | none => cases unsubscribed
      | some m =>
        have same : peerId = peer := by
          simp only [unsubscribes,Bool.and_eq_true,decide_eq_true_eq] at unsubscribed
          exact unsubscribed.1
        exact same ▸ revokeSource_renounces c.state peerId reason
    | _ => cases unsubscribed
  have gone := obeyed peer sent before
  cases cmd with
  | revokeOwnerSource ref reason => exact gone.withdrawn ref reason
  | revokeSource other reason m => exact gone.unsubscribed other reason
  | putSource e => exact gone.frame rfl rfl
  | putEvent key result => exact gone.frame rfl rfl
  | putPlan plan m =>
    apply gone.putPlan
    intro named
    have later := ordered peer sent named before
    simp [instructsLater,named,later] at silent
  | bindTask plan taskId => exact gone.putPlan fun named => gone.backed may named
  | bindPeer intent plan p =>
    obtain ⟨policies,after,added⟩ := bindPeer_policies (o := o) (s := c.state) intent plan p
    show Renounced peer (c.state.bindPeer o intent plan p)
    rw [after]
    have silent : plan.names peer = true → peer ∈ plan.revokedPeers := fun named => gone.backed may.1 named
    apply gone.policed silent
    intro id policy found
    rcases added found with old | stems
    · exact .inl old
    · exact .inr ⟨p,may.2,stems⟩
  | proposeSources input sources => exact gone.transaction fun _ _ h => (proposeSources_ok h).frame
  | proposeApproval input => exact gone.transaction fun _ _ h => (proposeApproval_ok h).frame
  | registerCard id ref =>
    apply gone.transaction
    intro a s' h
    obtain ⟨_,_,_,rfl⟩ := (registerCard_ok h).stored
    exact ⟨rfl,rfl⟩
  | recordPublication id publication =>
    apply gone.transaction
    intro a s' h
    obtain ⟨_,_,_,rfl⟩ := (recordPublication_ok h).stored
    exact ⟨rfl,rfl⟩
  | rejectProposal p => exact gone.frame rfl rfl
  | acceptOutreach m e p batch selected =>
    apply gone.transaction
    intro result s' h
    obtain ⟨_,_,_,rfl⟩ := (acceptOutreach_ok kept.keyed h).current
    exact ⟨rfl,rfl⟩
  | acceptSources m e id =>
    show Renounced peer (transaction c.state (c.state.acceptSources o m e id)).2
    cases ran : c.state.acceptSources o m e id with
    | error err => exact gone
    | ok answer =>
      obtain ⟨result,after⟩ := answer
      rcases acceptSources_ok kept.keyed ran with ⟨_,rfl⟩ | accepts
      · exact gone
      · obtain ⟨current,peers,monitor,stored,ok,subject,named,rfl⟩ := acceptSources_result accepts
        apply gone.accepted
        intro names
        have later := ordered current peers monitor stored ok subject peer sent names before
        have shown : instructsLater o peer sent (.act i (.acceptSources m e id)
            (transaction c.state (c.state.acceptSources o m e id)).1) = false := silent
        rw [ran] at shown
        have listed : (acceptedSources (.ok result)).any (fun p => p.peerId = peer) = true := named ▸ names
        simp [instructsLater,OwnerControls.transaction,listed,later] at shown

theorem Obeyed.silent (obeyed : Obeyed o c) (mark : c.Records c' x)
    (policies : c'.state.policies = c.state.policies) (plans : c'.state.plans = c.state.plans)
    (no : ∀ peer sent, unsubscribes o peer sent x = false) : Obeyed o c' := by
  intro peer sent open_
  have grown : c'.trace = x :: c.trace := mark
  rw [grown] at open_
  unfold unanswered at open_
  simp only [no,Bool.false_or,Bool.and_eq_true] at open_
  exact (obeyed peer sent open_.2).frame policies plans

theorem obeyed_change {start : State} (change : Change (custody o start) (InOrder o) c c')
    (obeyed : Obeyed o c) : Obeyed o c' := by
  cases change with
  | act i cmd inv may ordered => exact obeyed.act inv may ordered
  | call i q => exact obeyed.silent (c.records_call i q) rfl rfl fun _ _ => rfl
  | reply i q r => exact obeyed.silent (c.records_reply i q r) rfl rfl fun _ _ => rfl
  | shock x => cases x <;> exact obeyed.silent (c.records_shock _) rfl rfl fun _ _ => rfl
  | crash => exact obeyed.silent c.records_crash rfl rfl fun _ _ => rfl

/-- In every run that stores plans in order, an unsubscription wins. -/
theorem unsubscribe_wins {around : Surroundings} {now : Time} {w : World (registry o)}
    (run : World.LeadsIf (body o) (InOrder o) (.initial (boot around now)) w) : UnsubscribeWins o w.core := by
  have initial : World.Governed (custody o (boot around now)) (.initial (boot around now)) :=
    World.initial_governed (boot_kept around now) fun _ => id
  obtain ⟨_,changes⟩ := initial.leadsIf (custody_sound o _) body_safe run
  have none : Obeyed o (World.initial (S := registry o) (boot around now)).core := fun _ _ no => by cases no
  have obeyed := changes.keeps (fun _ _ change held => obeyed_change change held) none
  intro peer sent open_ id policy found named
  have revoked := (obeyed peer sent open_).policies found named
  simp [State.policyActive,revoked]

/-! ## In order and out of order -/

def watch : Observation := ownerSays "1" "watch @source" "1000"
def stop : Observation := ownerSays "5" "unsubscribe @source" "1005"

def speaks (s : State) : Bool := (s.policiesList .plain).any fun p => p.sourcePeerId = "source" && s.policyActive p

def withdraws : Event (registry o) → Bool
  | .act _ (.revokeSource _ _ _) _ => true
  | _ => false

def stores : Event (registry o) → Bool
  | .act _ (.putPlan _ _) _ => true
  | .act _ (.acceptSources _ _ _) _ => true
  | _ => false

theorem unanswered_none {trace : History o} (clear : trace.all fun x => !withdraws x) : unanswered o peer sent trace = false := by
  induction trace with
  | nil => rfl
  | cons x before ih =>
    rw [List.all_cons,Bool.and_eq_true] at clear
    have silent : unsubscribes o peer sent x = false := by
      cases x with
      | act i cmd r =>
        cases cmd with
        | revokeSource peerId reason m => simp [withdraws] at clear
        | _ => rfl
      | _ => rfl
    simp [unanswered,silent,ih clear.2]

theorem inOrder_early (cmd : Cmd) (c : Core (registry o)) (clear : c.trace.all fun x => !withdraws x) : InOrder o cmd c := by
  cases cmd with
  | putPlan plan m =>
    intro peer sent named open_
    rw [unanswered_none clear] at open_
    contradiction
  | acceptSources m e id =>
    intro current peers monitor _ _ _ peer sent _ open_
    rw [unanswered_none clear] at open_
    contradiction
  | _ => trivial

theorem inOrder_free (i : Nat) (cmd : Cmd) (r : cmd.Result) (c : Core (registry o))
    (clear : !stores (.act i cmd r : Event (registry o))) : InOrder o cmd c := by
  cases cmd with
  | putPlan plan m => simp [stores] at clear
  | acceptSources m e id => simp [stores] at clear
  | _ => trivial

/-- The source is watched, and its policy is activated. -/
def watched : List (Choice (registry .plain) Op) :=
  let answer := telegram [watch,stop]
  [.invoke (.prepareOwnerEvent watch),answer 0,answer 0,answer 0,
    .invoke (.prepareAuthority (plainIntent "1" (privateRef "1")))]

/-- Then it is unsubscribed. -/
def unwatched : List (Choice (registry .plain) Op) :=
  let answer := telegram [watch,stop]
  [.invoke (.prepareOwnerEvent stop),answer 2,answer 2,answer 2]

theorem unsubscribe_wins_watched : ∃ w : World (registry .plain), UnsubscribeWins .plain w.core ∧
    unanswered .plain "source" 1005 w.core.trace = true ∧ (w.core.state.policiesList .plain).length = 1 := by
  have played : (World.play (body .plain) 200 200 watched (.initial (boot .plain 2000))).any fun middle =>
      middle.core.trace.all (fun x => !withdraws x) && speaks middle.core.state &&
        (World.play (body .plain) 200 200 unwatched middle).any fun w =>
          (w.core.trace.take (w.core.trace.length - middle.core.trace.length)).all (fun x => !stores x) &&
            (unanswered .plain "source" 1005 w.core.trace && (w.core.state.policiesList .plain).length = 1) := by
    decide +kernel
  obtain ⟨middle,first,holds⟩ := World.play_any played
  obtain ⟨clear,played⟩ := Bool.and_eq_true_iff.mp holds
  obtain ⟨early,_⟩ := Bool.and_eq_true_iff.mp clear
  obtain ⟨w,second,holds⟩ := World.play_any played
  obtain ⟨late,holds⟩ := Bool.and_eq_true_iff.mp holds
  obtain ⟨open_,one⟩ := Bool.and_eq_true_iff.mp holds
  obtain ⟨later,grown⟩ := second.trace
  have fresh : later.all fun x => !stores x := by
    rw [← grown,List.length_append,Nat.add_sub_cancel,List.take_left] at late
    exact late
  have ordered : World.LeadsIf (body .plain) (InOrder .plain) (.initial (boot .plain 2000)) middle :=
    first.tame inOrder_early early
  have run := ordered.trans (second.harmless_since inOrder_free grown fresh)
  exact ⟨w,unsubscribe_wins run,open_,of_decide_eq_true one⟩

/-- The older message waits for its resolver while the unsubscription goes through. -/
def overtakenWatch : List (Choice (registry .plain) Op) :=
  let answer := telegram [watch,stop]
  [.invoke (.prepareOwnerEvent watch),answer 0,.invoke (.prepareOwnerEvent stop),answer 1,answer 1,answer 1,
    answer 0,answer 0,.invoke (.prepareAuthority (plainIntent "1" (privateRef "1")))]

theorem unsubscribe_overtaken : ∃ w : World (registry .plain), Reachable .plain w ∧ ¬UnsubscribeWins .plain w.core := by
  have played : (World.play (body .plain) 200 200 overtakenWatch (.initial (boot .plain 2000))).any fun w =>
      unanswered .plain "source" 1005 w.core.trace && speaks w.core.state := by decide +kernel
  obtain ⟨w,run,holds⟩ := World.play_any played
  obtain ⟨open_,active⟩ := Bool.and_eq_true_iff.mp holds
  obtain ⟨policy,listed,live⟩ := List.any_eq_true.mp active
  obtain ⟨named,live⟩ := Bool.and_eq_true_iff.mp live
  obtain ⟨id,found⟩ := Table.mem_list.mp listed
  refine ⟨w,⟨_,_,run⟩,fun wins => ?_⟩
  have dead := wins "source" 1005 open_ id policy found (of_decide_eq_true named)
  exact Bool.noConfusion (live.symm.trans dead)

end Neurobro.OwnerControls
