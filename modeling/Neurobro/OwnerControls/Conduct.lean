import Neurobro.Coop.Histories
import Neurobro.Coop.Runs
import Neurobro.OwnerControls.Changes

/-! The rules every operation of the registry keeps. A receipt that is not revoked goes
back to a decision of the owner that nothing has touched since; a copy of a proposal is
written back only while the stored one is pending. -/
namespace Neurobro.OwnerControls

open Coop
open Agent (Err Time MessageRef refKey)

variable {o : Options} {start : State} {i : Nat}

abbrev History (o : Options) := List (Event (registry o))

/-- The registry after a history. -/
abbrev stateAt (start : State) (trace : History o) : State := replay (S := registry o) start trace

/-! ## What histories show -/

/-- Telegram showed the fiber this message, and it was the owner's own. -/
def ReadBack (o : Options) (start : State) (i : Nat) (m : Observation) (trace : History o) : Prop :=
  ∃ (later : History o) (found : Observation) (before : History o), trace = later ++ .reply i (.getMessage m.ref) (.ok (some found)) :: before ∧
    sameRef found.ref m.ref = true ∧ ownerVersion o.host found = ownerVersion o.host m ∧
    (stateAt start before).directOwner o found = true

/-- The command withdraws a message or records a version of it. -/
def Cmd.touches (ref : MessageRef) : Cmd → Bool
  | .revokeOwnerSource ref' _ => sameRef ref ref'
  | .putSource e => sameRef ref e.ref
  | _ => false

def touches (ref : MessageRef) : Event (registry o) → Prop
  | .act _ cmd _ => cmd.touches ref = true
  | _ => False

/-- One approval of a batch, as it was committed. -/
structure Confirmation where
  fiber : Nat
  message : Observation
  evidence : OwnerSourceEvidence
  proposal : OwnerScopeProposal
  batch : Batch
  selected : List String
  result : OwnerEventResult

def Confirmation.event (a : Confirmation) : Event (registry o) :=
  .act a.fiber (.acceptOutreach a.message a.evidence a.proposal a.batch a.selected) (.ok a.result)

def OwnerSourceEvidence.Shows (h : Host) (m : Observation) (e : OwnerSourceEvidence) : Prop :=
  e.ref = m.ref ∧ e.versionHash = ownerVersion h m

/-- The owner's words approve these recipients of a batch. -/
def Approves (h : Host) (m : Observation) (batch : Batch) (selected : List String) : Prop :=
  ∃ id ids, m.directive h = some (.approve id ids) ∧
    selected = ids.getD (batch.recipients.map RecipientApprovalSpec.id)

/-- What held when an approval was committed: the owner's message had been read back, it
was the active version and timely, and the proposal was pending and unexpired. -/
structure Confirmation.Valid (o : Options) (start : State) (a : Confirmation) (earlier : History o) : Prop where
  readBack : ReadBack o start a.fiber a.message earlier
  shown : a.evidence.Shows o.host a.message
  approves : Approves o.host a.message a.batch a.selected
  proposal : ∃ current, current.id = a.proposal.id ∧ current.context = a.proposal.context ∧
    current.subject = .outreach a.batch ∧ Confirms o (stateAt start earlier) a.message a.evidence current

/-- The receipt comes from an approval, and its message has not been touched since. -/
def Stands (o : Options) (start : State) (trace : History o) (r : OwnerApprovalReceipt) : Prop :=
  ∃ (a : Confirmation) (later earlier : History o), trace = later ++ a.event :: earlier ∧ a.Valid o start earlier ∧
    r = (stateAt start earlier).newReceipt o a.evidence a.proposal a.batch a.selected ∧
    ∀ x ∈ later, ¬touches r.ownerSource.ref x

/-! ## Copies of proposals -/

def OwnerScopeProposal.card (p : OwnerScopeProposal) : Option String := p.cardRef.map refKey

/-- A copy that was read when the stored proposal had its card. -/
structure OwnerScopeProposal.Copies (copy stored : OwnerScopeProposal) : Prop where
  id : stored.id = copy.id
  subject : stored.subject = copy.subject
  context : stored.context = copy.context
  carded : copy.card.isSome
  card : stored.card = copy.card

def Known (copy : OwnerScopeProposal) (c : Core (registry o)) : Prop :=
  ∃ stored, c.state.proposals.get copy.id = some stored ∧ copy.Copies stored

/-- The plan is the stored one, up to its task. -/
def Backed (plan : SourcePlan) (s : State) : Prop :=
  ∃ stored, s.plans.get plan.id = some stored ∧ stored.peers = plan.peers ∧
    stored.revokedPeers = plan.revokedPeers ∧ stored.ownerSource = plan.ownerSource

/-! ## The rules -/

/-- The registry and its history agree. -/
structure Kept (o : Options) (start : State) (c : Core (registry o)) : Prop where
  keyed : Keyed c.state
  replays : c.Replays start
  approved : ∀ {id r}, c.state.receipts.get id = some r → r.revokedAt = none →
    Stands o start c.trace r ∧ (c.state.sources.get (refKey r.ownerSource.ref)).isSome = true

def Withdrawn (ref : MessageRef) (s : State) : Prop :=
  ∀ {id r}, s.receipts.get id = some r → sameRef r.ownerSource.ref ref = true → r.revokedAt.isSome = true

def Permits (o : Options) (start : State) (i : Nat) (c : Core (registry o)) : Cmd → Prop
  | .putSource e => Withdrawn e.ref c.state
  | .acceptOutreach m e p batch selected => ReadBack o start i m c.trace ∧ e.Shows o.host m ∧
      Approves o.host m batch selected ∧ Known p c ∧ p.subject = .outreach batch
  | .rejectProposal p => ∃ stored, c.state.proposals.get p.id = some stored ∧ p.Copies stored ∧ stored.state = .pending
  | .bindTask plan _ => Backed plan c.state
  | .bindPeer _ plan peer => Backed plan c.state ∧ peer ∈ plan.peers
  | _ => True

def custody (o : Options) (start : State) : Rules (registry o) where
  inv := Kept o start
  mayAct := fun i cmd c => Permits o start i c cmd
  mayCall := fun _ _ _ => True

/-! ## What lasts -/

theorem readBack_later {trace : History o} (h : ReadBack o start i m trace) : ReadBack o start i m (x :: trace):= by
  obtain ⟨later,found,before,rfl,rest⟩ := h
  exact ⟨x :: later,found,before,rfl,rest⟩

theorem readBack_lasting (m : Observation) : Lasting (custody o start) fun c => ReadBack o start i m c.trace := by
  intro who c c' move held
  obtain ⟨x,mark⟩ := move.records
  have grown : c'.trace = x :: c.trace := mark
  rw [grown]
  exact readBack_later held

/-- Commands leave the sources of other messages alone, and never forget one. -/
theorem sources_kept (step : Step o s cmd s') {key : String}
    (found : (s.sources.get key).isSome = true) : (s'.sources.get key).isSome = true := by
  cases step with
  | none | unsubscribed | noted | planned | bound => exact found
  | withdrawn ref reason =>
    unfold State.revokeOwnerSource
    dsimp only
    split
    · rw [Table.get_put]
      split
      · rfl
      · exact found
    · exact found
  | recorded e =>
    show ((s.sources.put (refKey e.ref) ⟨e,none⟩).get key).isSome = true
    rw [Table.get_put]
    split
    · rfl
    · exact found
  | policed intent plan peer =>
    obtain ⟨policies,after,_⟩ := bindPeer_policies (o := o) (s := s) intent plan peer
    rw [after]
    exact found
  | opened opens => rw [opens.after]; exact found
  | carded cards =>
    obtain ⟨p,_,_,rfl⟩ := cards.stored
    exact found
  | published publishes =>
    obtain ⟨p,_,_,rfl⟩ := publishes.stored
    exact found
  | rejected => exact found
  | accepted _ accepts =>
    obtain ⟨current,peers,monitor,_,_,_,_,_,rfl⟩ := accepts.current
    obtain ⟨_,_,after,_⟩ := adoptPlan_adds (o := o) (s := s) current.context.taskId
      (State.proposalPlan o current _ peers monitor)
    rw [after]
    exact found
  | granted _ grants =>
    obtain ⟨current,_,_,rfl⟩ := grants.current
    exact found

/-- Every row of the receipts after a commit is an old one, one withdrawn, or the new one. -/
theorem receipts_kept (step : Step o s cmd s') {id : Name}
    (found : s'.receipts.get id = some r) :
    s.receipts.get id = some r ∨
    (∃ old ref reason, cmd = .revokeOwnerSource ref reason ∧ s.receipts.get id = some old ∧
      r = old.withdraw ref s.now) ∨
    ∃ m e p batch selected result, cmd = .acceptOutreach m e p batch selected ∧
      (exec o (.acceptOutreach m e p batch selected) s).1 = .ok result ∧ Grants o s m e p batch selected result s' ∧
      r = s.newReceipt o e p batch selected := by
  cases step with
  | none | unsubscribed | noted | planned | bound | recorded | rejected => exact .inl found
  | withdrawn ref reason =>
    have mapped : (s.receipts.mapRows (OwnerApprovalReceipt.withdraw ref s.now)).get id = some r := found
    rw [Table.get_mapRows] at mapped
    obtain ⟨old,before,rfl⟩ := Option.map_eq_some_iff.mp mapped
    exact .inr (.inl ⟨old,ref,reason,rfl,before,rfl⟩)
  | policed intent plan peer =>
    obtain ⟨policies,after,_⟩ := bindPeer_policies (o := o) (s := s) intent plan peer
    rw [after] at found
    exact .inl found
  | opened opens => rw [opens.after] at found; exact .inl found
  | carded cards =>
    obtain ⟨p,_,_,rfl⟩ := cards.stored
    exact .inl found
  | published publishes =>
    obtain ⟨p,_,_,rfl⟩ := publishes.stored
    exact .inl found
  | accepted _ accepts =>
    obtain ⟨current,peers,monitor,_,_,_,_,_,rfl⟩ := accepts.current
    obtain ⟨_,_,after,_⟩ := adoptPlan_adds (o := o) (s := s) current.context.taskId
      (State.proposalPlan o current _ peers monitor)
    rw [after] at found
    exact .inl found
  | @granted m e p batch selected result _ ran grants =>
    obtain ⟨current,same,confirms,rfl⟩ := grants.current
    have put : (s.receipts.put s.fresh (s.newReceipt o e p batch selected)).get id = some r := found
    rw [Table.get_put] at put
    split at put
    · exact .inr (.inr ⟨m,e,p,batch,selected,result,rfl,ran,grants,(Option.some.inj put).symm⟩)
    · exact .inl put

theorem withdraw_active {now : Time} {old : OwnerApprovalReceipt}
    (active : (old.withdraw ref now).revokedAt = none) :
    sameRef old.ownerSource.ref ref = false ∧ old.withdraw ref now = old := by
  unfold OwnerApprovalReceipt.withdraw at *
  split at active
  · contradiction
  · rename_i other
    rw [if_neg other]
    exact ⟨by simpa using other,rfl⟩

theorem stands_later {trace : History o}
    (stands : Stands o start trace r) (untouched : ¬touches r.ownerSource.ref x) : Stands o start (x :: trace) r := by
  obtain ⟨a,later,earlier,rfl,valid,made,clear⟩ := stands
  refine ⟨a,x :: later,earlier,rfl,valid,made,fun y member => ?_⟩
  rcases List.mem_cons.mp member with rfl | old
  · exact untouched
  · exact clear y old

section acts

variable {c : Core (registry o)}

theorem Kept.act (kept : Kept o start c) {cmd : Cmd} (may : Permits o start i c cmd) : Kept o start (c.act i cmd) := by
  have step : Step o c.state cmd (c.act i cmd).state := exec_step kept.keyed cmd
  have moved : Move (custody o start) (some i) c (c.act i cmd) := .act kept may
  refine ⟨kept.keyed.step step ?_,kept.replays.move moved,fun {id r} found active => ?_⟩
  · rintro p rfl
    obtain ⟨stored,found,_⟩ := may
    exact ⟨stored,found⟩
  have same : ∀ {old : OwnerApprovalReceipt}, c.state.receipts.get id = some old → old.revokedAt = none →
      cmd.touches old.ownerSource.ref = false →
      Stands o start (c.act i cmd).trace old ∧ ((c.act i cmd).state.sources.get (refKey old.ownerSource.ref)).isSome = true := by
    intro old before unrevoked untouched
    obtain ⟨stands,recorded⟩ := kept.approved before unrevoked
    refine ⟨stands_later stands ?_,sources_kept step recorded⟩
    show ¬cmd.touches old.ownerSource.ref = true
    simp [untouched]
  rcases receipts_kept step found with before | ⟨old,ref,reason,rfl,before,rfl⟩ | ⟨m,e,p,batch,selected,result,rfl,ran,grants,rfl⟩
  · apply same before active
    cases cmd with
    | revokeOwnerSource ref reason =>
      have mapped : (c.state.receipts.mapRows (OwnerApprovalReceipt.withdraw ref c.state.now)).get id = some r := found
      rw [Table.get_mapRows,before] at mapped
      have unchanged := Option.some.inj mapped
      exact (withdraw_active (by rw [unchanged]; exact active)).1
    | putSource e =>
      cases touched : sameRef r.ownerSource.ref e.ref with
      | false => exact touched
      | true =>
        have revoked := may before touched
        simp [active] at revoked
    | _ => rfl
  · obtain ⟨other,unchanged⟩ := withdraw_active active
    rw [unchanged] at active ⊢
    exact same before active other
  · obtain ⟨readBack,shown,approves,known,subject⟩ := may
    obtain ⟨stored,stays,copies⟩ := known
    obtain ⟨current,named,confirms,_⟩ := grants.current
    have sameProposal : stored = current := by
      have found := confirms.stored
      rw [named] at found
      exact Option.some.inj (stays.symm.trans found)
    subst sameProposal
    have now : c.state = stateAt start c.trace := kept.replays
    refine ⟨⟨⟨i,m,e,p,batch,selected,result⟩,[],c.trace,?_,⟨readBack,shown,approves,?_⟩,?_,by simp⟩,?_⟩
    · show Event.act (S := registry o) i (.acceptOutreach m e p batch selected)
        (exec o (.acceptOutreach m e p batch selected) c.state).1 :: c.trace = _
      rw [ran]
      rfl
    · exact ⟨stored,named,copies.context,copies.subject.trans subject,now ▸ confirms⟩
    · rw [now]
    · apply sources_kept step
      have recorded := confirms.recorded
      unfold State.sourceActive at recorded
      cases row : c.state.sources.get (refKey e.ref) with
      | none => simp [row] at recorded
      | some _ =>
        show (c.state.sources.get (refKey e.ref)).isSome = true
        rw [row]
        rfl

/-- What leaves the registry alone, and is no commit, keeps the agreement. -/
theorem Kept.silent (kept : Kept o start c) (mark : c.Records c' x)
    (keyed : Keyed c'.state) (replays : c'.Replays start) (receipts : c'.state.receipts = c.state.receipts)
    (sources : c'.state.sources = c.state.sources) (no : ∀ ref, ¬touches ref x) : Kept o start c' := by
  refine ⟨keyed,replays,fun {id r} found active => ?_⟩
  rw [receipts] at found
  obtain ⟨stands,recorded⟩ := kept.approved found active
  have grown : c'.trace = x :: c.trace := mark
  rw [grown,sources]
  exact ⟨stands_later stands (no _),recorded⟩

end acts

/-! ## Proposals go on -/

/-- What no commit takes from a stored proposal. -/
structure OwnerScopeProposal.Goes (old new : OwnerScopeProposal) : Prop where
  id : new.id = old.id
  subject : new.subject = old.subject
  context : new.context = old.context
  card : old.card.isSome → new.card = old.card
  settled : old.state ≠ .pending → new.state = old.state

theorem OwnerScopeProposal.Goes.refl (p : OwnerScopeProposal) : p.Goes p :=
  ⟨rfl,rfl,rfl,fun _ => rfl,fun _ => rfl⟩

theorem OwnerScopeProposal.Copies.goes {copy old new : OwnerScopeProposal} (copies : copy.Copies old) (goes : old.Goes new) :
    copy.Copies new := by
  refine ⟨goes.id.trans copies.id,goes.subject.trans copies.subject,goes.context.trans copies.context,copies.carded,?_⟩
  rw [goes.card (copies.card ▸ copies.carded),copies.card]

/-- The row at one name after another row was saved. -/
theorem goes_put {s s' : State} {p new : OwnerScopeProposal} {id : Name}
    (found : s.proposals.get id = some old) (stored : s.proposals.get p.id = some p) (goes : p.Goes new)
    (after : s'.proposals = s.proposals.put new.id new) :
    ∃ new, s'.proposals.get id = some new ∧ old.Goes new := by
  rw [after]
  rw [← goes.id] at stored
  by_cases same : id = new.id
  · subst same
    cases found.symm.trans stored
    exact ⟨new,Table.get_put_same _ _ _,goes⟩
  · exact ⟨old,by rw [Table.get_put_other _ _ same,found],.refl old⟩

theorem proposal_goes {s s' : State} (keyed : Keyed s) (step : Step o s cmd s')
    (copied : ∀ p, cmd = .rejectProposal p →
      ∃ stored, s.proposals.get p.id = some stored ∧ p.Copies stored ∧ stored.state = .pending)
    {id : Name} (found : s.proposals.get id = some old) :
    ∃ new, s'.proposals.get id = some new ∧ old.Goes new := by
  cases step with
  | none | withdrawn | unsubscribed | recorded | noted | planned | bound => exact ⟨old,found,.refl old⟩
  | policed intent plan peer =>
    obtain ⟨policies,after,_⟩ := bindPeer_policies (o := o) (s := s) intent plan peer
    rw [after]
    exact ⟨old,found,.refl old⟩
  | @opened _ p _ opens =>
    rw [opens.after]
    have other : id ≠ p.id := by
      rintro rfl
      exact Nat.lt_irrefl s.fresh (opens.named ▸ keyed.drawn found)
    refine ⟨old,?_,.refl old⟩
    rw [putProposal_get,if_neg other]
    exact found
  | @carded n ref _ cards =>
    obtain ⟨p,stored,same,rfl⟩ := cards.stored
    refine goes_put found (p := p) (by simpa [keyed.proposals stored] using stored) ?_ rfl
    refine ⟨rfl,rfl,rfl,fun carded => ?_,fun _ => rfl⟩
    obtain ⟨card,known⟩ := Option.isSome_iff_exists.mp carded
    unfold OwnerScopeProposal.card at *
    obtain ⟨kept,has,rfl⟩ := Option.map_eq_some_iff.mp known
    have equal : refKey kept = refKey ref := by simpa [sameRef] using same kept has
    simp [has,equal]
  | published publishes =>
    obtain ⟨p,stored,_,rfl⟩ := publishes.stored
    refine goes_put found (p := p) (by simpa [keyed.proposals stored] using stored) ?_ rfl
    exact ⟨rfl,rfl,rfl,fun _ => rfl,fun _ => rfl⟩
  | rejected p =>
    obtain ⟨stored,here,copies,pending⟩ := copied p rfl
    refine goes_put found (p := stored) (copies.id ▸ here) ?_ rfl
    exact ⟨copies.id.symm,copies.subject.symm,copies.context.symm,fun _ => copies.card.symm,
      fun settled => absurd pending settled⟩
  | accepted _ accepts =>
    obtain ⟨current,peers,monitor,_,confirms,_,_,_,rfl⟩ := accepts.current
    obtain ⟨_,_,after,_⟩ := adoptPlan_adds (o := o) (s := s) current.context.taskId
      (State.proposalPlan o current _ peers monitor)
    rw [after]
    refine goes_put found confirms.stored ?_ rfl
    exact ⟨rfl,rfl,rfl,fun _ => rfl,fun settled => absurd confirms.pending settled⟩
  | granted _ grants =>
    obtain ⟨current,_,confirms,rfl⟩ := grants.current
    refine goes_put found confirms.stored ?_ rfl
    exact ⟨rfl,rfl,rfl,fun _ => rfl,fun settled => absurd confirms.pending settled⟩

theorem Permits.copied (may : Permits o start i c cmd) :
    ∀ p, cmd = .rejectProposal p →
      ∃ stored, c.state.proposals.get p.id = some stored ∧ p.Copies stored ∧ stored.state = .pending := by
  rintro p rfl
  exact may

theorem known_lasting (p : OwnerScopeProposal) : Lasting (custody o start) (Known p) := by
  intro who c c' move held
  obtain ⟨stored,found,copies⟩ := held
  cases move with
  | @act c i cmd inv may =>
    obtain ⟨new,found',goes⟩ := proposal_goes inv.keyed (exec_step inv.keyed cmd) (Permits.copied may) found
    exact ⟨new,found',copies.goes goes⟩
  | call | reply => exact ⟨stored,found,copies⟩
  | shock x => cases x <;> exact ⟨stored,found,copies⟩

theorem custody_sound (o : Options) (start : State) : (custody o start).Sound where
  move := by
    intro who c c' move
    have replays : c.Replays start → c'.Replays start := fun h => h.move move
    cases move with
    | act inv may => exact inv.act may
    | @call c i q inv => exact inv.silent (c.records_call i q) inv.keyed (replays inv.replays) rfl rfl fun _ no => no
    | @reply c i q r inv => exact inv.silent (c.records_reply i q r) inv.keyed (replays inv.replays) rfl rfl fun _ no => no
    | @shock c x inv =>
      have keyed : Keyed (shock x c.state) := by
        cases x <;> exact ⟨inv.keyed.proposals,inv.keyed.receipts,inv.keyed.plans,inv.keyed.drawn⟩
      cases x <;> exact inv.silent (c.records_shock _) keyed (replays inv.replays) rfl rfl fun _ no => no
  crash := fun {c} inv => inv.silent c.records_crash inv.keyed inv.replays.crash rfl rfl fun _ no => no

/-! ## The operations -/

section walks

variable {α : Type}

theorem untaken : ¬(custody o start).taken i := fun no => no

theorem calm_commit (free : ∀ i c, Permits o start i c cmd) : Quiet (custody o start) (commit cmd : M o cmd.Result):=
  .act (custody_sound o start) fun i c _ => free i c

theorem calm_ask (call : Call) : Quiet (custody o start) (ask call : M o call.Reply) :=
  .call (custody_sound o start) fun _ _ _ => trivial

theorem calm_await (h : Quiet (custody o start) m) : Quiet (custody o start) (Async.await m) :=
  .await (custody_sound o start) h

/-- The answer to a reading is the newest event when it arrives. -/
def JustRead (o : Options) (start : State) (i : Nat) (ref : MessageRef) (found : Option Observation)
    (c : Core (registry o)) : Prop :=
  ∃ before : History o, c.trace = .reply i (.getMessage ref) (.ok found) :: before ∧ c.state = stateAt start before

theorem getMessage_spec (ref : MessageRef) :
    Triple (custody o start) i (fun _ => True) (getMessage ref : M o (Option Observation))
      (onOk fun found c => JustRead o start i ref found c) := by
  refine .bind (Q := onOk fun answer c => ∀ found, answer = .ok found → JustRead o start i ref found c)
    (.call (custody_sound o start) .top (fun _ _ _ => trivial) (fun _ _ _ => trivial) fun c answer inv _ => ?_)
    (fun answer => .lift fun c _ read => ?_) fun _ _ _ _ => trivial
  · rintro found rfl
    exact ⟨c.trace,rfl,inv.replays⟩
  · cases answer with
    | error e => trivial
    | ok found => exact read found rfl

theorem calm_getMessage (ref : MessageRef) :
    Quiet (custody o start) (getMessage ref : M o (Option Observation)) :=
  .bind (calm_ask _) fun _ => .lift _

/-- What a fresh reading of the owner's message leaves behind. -/
theorem freshOwner_spec (m : Observation) :
    Triple (custody o start) i (fun _ => True) (freshOwner m : M o Observation)
      (onOk fun fresh c => ReadBack o start i m c.trace) := by
  refine .bind (Q := fun _ _ => True) (.check fun _ _ _ => trivial) (fun _ => ?_) fun _ _ _ _ => trivial
  refine .bind (getMessage_spec m.ref) (fun found => .check fun c _ read => ?_) fun _ _ _ _ => trivial
  obtain ⟨before,grown,now⟩ := read
  unfold State.readBack
  cases found with
  | none => trivial
  | some fresh =>
    by_cases genuine : (sameRef fresh.ref m.ref && c.state.directOwner o fresh &&
        decide (ownerVersion o.host fresh = ownerVersion o.host m)) = true
    · simp only [genuine,if_true]
      simp only [Bool.and_eq_true,decide_eq_true_eq] at genuine
      exact ⟨[],fresh,before,grown,genuine.1.1,genuine.2,now ▸ genuine.1.2⟩
    · simp only [genuine]
      trivial

theorem calm_freshOwner (m : Observation) : Quiet (custody o start) (freshOwner m : M o Observation) :=
  .bind (.check _) fun _ => .bind (calm_getMessage _) fun _ => .check _

/-- After the wait for it, the reading is still on record. -/
theorem awaitOwner_spec (m : Observation) (lasting : Lasting (custody o start) A) :
    Triple (custody o start) i A (Async.await (freshOwner m) : M o Observation)
      (onOk fun _ c => A c ∧ ReadBack o start i m c.trace) := by
  have read : Triple (custody o start) i A (freshOwner m : M o Observation)
      (onOk fun _ c => A c ∧ ReadBack o start i m c.trace) := by
    apply ((freshOwner_spec m).keep lasting).weaken
    · exact fun _ _ a => ⟨trivial,a⟩
    · rintro (e | fresh) c _ ⟨held,a⟩
      · trivial
      · exact ⟨a,held⟩
  refine .await (custody_sound o start) read fun r => ?_
  cases r with
  | error e => exact .top
  | ok fresh => exact (lasting.and (readBack_lasting m)).stable

/-- Recording another version first withdraws what the last one gave. -/
theorem calm_recordOwner (e : OwnerSourceEvidence) : Quiet (custody o start) (recordOwner e : M o Unit) := by
  intro i _
  refine .bind (Q := onOk fun r (c : Core (registry o)) => r = .new → Withdrawn e.ref c.state) (.check fun c inv _ => ?_) (fun r => ?_)
    fun _ _ _ _ => trivial
  · unfold State.recorded
    split
    · rename_i absent
      intro _ id r found same
      by_cases active : r.revokedAt = none
      · have recorded := (inv.approved found active).2
        have key : refKey r.ownerSource.ref = refKey e.ref := by simpa [sameRef] using same
        rw [key,absent] at recorded
        contradiction
      · exact Option.isSome_iff_ne_none.mpr active
    · split
      · exact fun no => by cases no
      · split
        · trivial
        · exact fun no => by cases no
  · cases r with
    | same => exact .pure fun _ _ _ => trivial
    | new => exact .act (custody_sound o start) (fun _ _ withdrawn => withdrawn rfl) fun _ _ _ _ => trivial
    | edited =>
      refine .bind (Q := onOk fun _ (c : Core (registry o)) => Withdrawn e.ref c.state)
        (.act (custody_sound o start) (fun _ _ _ => trivial) fun c _ _ _ => ?_)
        (fun _ => .act (custody_sound o start) (fun _ _ withdrawn => withdrawn) fun _ _ _ _ => trivial)
        fun _ _ _ _ => trivial
      intro id r found same
      have mapped : (c.state.receipts.mapRows (OwnerApprovalReceipt.withdraw e.ref c.state.now)).get id = some r := found
      rw [Table.get_mapRows] at mapped
      obtain ⟨old,_,rfl⟩ := Option.map_eq_some_iff.mp mapped
      unfold OwnerApprovalReceipt.withdraw at same ⊢
      split
      · rfl
      · rename_i other
        rw [if_neg other] at same
        exact absurd same other

theorem calm_concluded (m : Observation) (result : OwnerEventResult) :
    Quiet (custody o start) (concluded m result : M o OwnerEventResult) :=
  Quiet.bind (calm_commit fun _ _ => trivial) fun _ => .pure _

/-! ### Sources -/

theorem calm_resolveSource (selector : String) :
    Quiet (custody o start) (resolveSource selector : M o ResolvedOwnerPeer) :=
  .bind (calm_ask _) fun _ => .bind (.lift _) fun _ => .lift _

theorem calm_forwardedPeer (fresh : Observation) :
    Quiet (custody o start) (forwardedPeer fresh : M o (Option ResolvedOwnerPeer)) := by
  unfold forwardedPeer
  split
  · exact .pure _
  · refine .bind (calm_getMessage _) fun found => ?_
    cases found with
    | none => exact .pure _
    | some material => exact .bind (calm_ask _) fun _ => .lift _

theorem calm_applySource (m fresh : Observation) (e : OwnerSourceEvidence) (kind : SourceCommand)
    (peers : List ResolvedOwnerPeer) : Quiet (custody o start) (applySource m fresh e kind peers : M o OwnerEventResult) := by
  refine .ite ?_ ?_
  · exact .bind (.each fun peer _ => calm_commit fun _ _ => trivial) fun _ => calm_concluded _ _
  · exact Quiet.bind (calm_commit fun _ _ => trivial) fun _ => calm_concluded _ _

theorem calm_confirmSource (m fresh : Observation) (e : OwnerSourceEvidence) (kind : SourceCommand)
    (peers : List ResolvedOwnerPeer) :
    Quiet (custody o start) (confirmSource m fresh e kind peers : M o OwnerEventResult) := by
  refine .ite (.pure _) ?_
  refine .bind (calm_await (calm_freshOwner m)) fun _ => .bind (.look _) fun live => ?_
  exact .ite (calm_applySource _ _ _ _ _) (.pure _)

theorem calm_instructSource (m fresh : Observation) (e : OwnerSourceEvidence) (kind : SourceCommand)
    (selectors : List String) (forwardedSource : Bool) :
    Quiet (custody o start) (instructSource m fresh e kind selectors forwardedSource : M o OwnerEventResult) := by
  refine .bind (.gather fun selector _ => calm_resolveSource selector) fun peers => .ite ?_ (calm_confirmSource _ _ _ _ _)
  refine .bind (calm_forwardedPeer fresh) fun found => ?_
  cases found with
  | none => exact .pure _
  | some peer => exact .bind (.lift _) fun peer => calm_confirmSource _ _ _ _ _

/-! ### Decisions -/

theorem calm_verifySource (source : ResolvedOwnerPeer) (changed : String) :
    Quiet (custody o start) (verifySource source changed : M o ResolvedOwnerPeer) :=
  .bind (calm_ask _) fun _ => .bind (.lift _) fun _ => .bind (.lift _) fun _ => .ite (.lift _) (.pure _)

theorem calm_approveSources (m : Observation) (e : OwnerSourceEvidence) (proposal : OwnerScopeProposal)
    (sources : List ResolvedOwnerPeer) :
    Quiet (custody o start) (approveSources m e proposal sources : M o OwnerEventResult) := by
  refine .ite (.lift _) ?_
  refine .bind (.gather fun source _ => calm_verifySource source _) fun _ => ?_
  refine .bind (calm_await (calm_freshOwner m)) fun _ => ?_
  exact Quiet.bind (calm_commit fun _ _ => trivial) fun _ => .lift _

/-- A copy of a proposal with the owner's message on record. -/
def Deciding (o : Options) (start : State) (i : Nat) (m : Observation) (p : OwnerScopeProposal)
    (c : Core (registry o)) : Prop := Known p c ∧ ReadBack o start i m c.trace

theorem approve_spec {id : Option String}
 (shown : e.Shows o.host m)
    (words : m.directive o.host = some (.approve id selectedIds)) :
    Triple (custody o start) i (Deciding o start i m p) (approve m e p selectedIds) fun _ _ => True := by
  unfold approve
  split
  · exact .ite (fun _ => .pure fun _ _ _ => trivial) fun _ => (calm_approveSources _ _ _ _).triple untaken
  · rename_i batch subject
    refine .ite (fun _ => .pure fun _ _ _ => trivial) fun _ => ?_
    refine .seq (Q := fun _ _ => True) (.act (custody_sound o start) (fun c _ deciding => ?_) fun _ _ _ _ => trivial)
      fun _ => .lift fun _ _ _ => trivial
    exact ⟨deciding.2,shown,⟨id,selectedIds,words,rfl⟩,deciding.1,subject⟩

/-- What a decision says, in the owner's own words. -/
def Decision.Said (h : Host) (m : Observation) : Decision → Prop
  | .approve ids => ∃ id, m.directive h = some (.approve id ids)
  | .reject => True

theorem decideCard_spec
    (shown : e.Shows o.host m) (said : decision.Said o.host m) :
    Triple (custody o start) i (Deciding o start i m p) (decideCard m e decision p) fun _ _ => True := by
  let Pending (c : Core (registry o)) : Prop := ∃ stored, c.state.proposals.get p.id = some stored ∧ stored.state = .pending
  refine .seq (Q := onOk fun standing c => Deciding o start i m p c ∧ (standing = true → Pending c))
    (.check fun c _ deciding => ?_) fun standing => ?_
  · unfold State.standing
    cases found : c.state.proposal p.id with
    | error err => trivial
    | ok current =>
      refine ⟨deciding,fun standing => ⟨current,proposal_ok found,?_⟩⟩
      simp only [State.confirmable,Bool.and_eq_true,decide_eq_true_eq] at standing
      exact standing.1.1.1
  refine .ite (fun _ => .pure fun _ _ _ => trivial) fun stands => ?_
  have standing : standing = true := by simpa using stands
  refine .seq (Q := fun _ c => Deciding o start i m p c ∧ Pending c) (.check fun _ _ held => ⟨held.1,held.2 standing⟩)
    fun _ => ?_
  cases decision with
  | approve ids =>
    obtain ⟨id,words⟩ := said
    exact (approve_spec shown words).pre fun _ _ held => held.1
  | reject =>
    refine .seq (Q := fun _ _ => True) (.act (custody_sound o start) (fun c _ held => ?_) fun _ _ _ _ => trivial)
      fun _ => .pure fun _ _ _ => trivial
    obtain ⟨⟨⟨stored,found,copies⟩,_⟩,other,found',pending⟩ := held
    cases found.symm.trans found'
    exact ⟨stored,found,copies,pending⟩

theorem confirmCard_spec
    (shown : e.Shows o.host m) (said : decision.Said o.host m) :
    Triple (custody o start) i (fun (c : Core (registry o)) => c.state.proposals.get p.id = some p) (confirmCard m e decision p)
      fun _ _ => True := by
  unfold confirmCard
  split
  · exact .pure fun _ _ _ => trivial
  · rename_i card carded
    refine .ite (fun _ => .pure fun _ _ _ => trivial) fun _ => ?_
    have copies : p.Copies p := ⟨rfl,rfl,rfl,by simp [OwnerScopeProposal.card,carded],rfl⟩
    have known : ∀ c : Core (registry o), (custody o start).inv c → c.state.proposals.get p.id = some p → Known p c :=
      fun c _ found => ⟨p,found,copies⟩
    refine .seq (((calm_getMessage card).keeps untaken (known_lasting p)).pre known) fun found => .ite (fun _ => .pure fun _ _ _ => trivial) fun _ => ?_
    refine .seq (awaitOwner_spec m (known_lasting p)) fun fresh => ?_
    exact (decideCard_spec shown said).pre fun _ _ held => held

theorem calm_confirm (shown : e.Shows o.host m) (id : Option String)
 (said : decision.Said o.host m) :
    Quiet (custody o start) (confirm m e id decision : M o OwnerEventResult) := by
  intro i _
  refine .seq (Q := onOk fun found (c : Core (registry o)) => ∀ list, found = some list → ∀ p ∈ list,
      c.state.proposals.get p.id = some p)
    (.look fun c inv _ => ?_) fun found => ?_
  · intro list named p member
    have listed : p ∈ c.state.proposalsList o := by
      unfold State.candidates at named
      split at named
      · cases Option.some.inj named
        exact (List.mem_filter.mp (List.mem_filter.mp member).1).1
      · obtain ⟨ref,_,rfl⟩ := Option.map_eq_some_iff.mp named
        exact (List.mem_filter.mp (List.mem_filter.mp member).1).1
    obtain ⟨n,stored⟩ := Table.mem_list.mp listed
    rw [inv.keyed.proposals stored,stored]
  cases found with
  | none => exact .pure fun _ _ _ => trivial
  | some list =>
    dsimp only
    split
    · rename_i proposal
      exact (confirmCard_spec shown said).pre fun c _ known => known _ rfl proposal (by simp)
    · exact .pure fun _ _ _ => trivial

theorem calm_settleDecision (m : Observation) {fresh : Observation}
    (shown : e.Shows o.host fresh) (id : Option String) (said : decision.Said o.host fresh) :
    Quiet (custody o start) (settleDecision m fresh e id decision : M o OwnerEventResult) :=
  .bind (calm_await (calm_confirm shown id said)) fun _ => calm_concluded _ _

/-! ### Owner events -/

theorem calm_instruct (m : Observation) {fresh : Observation} (shown : e.Shows o.host fresh)
    {directive : DirectOwnerDirective} (words : fresh.directive o.host = some directive) :
    Quiet (custody o start) (instruct m fresh e directive : M o OwnerEventResult) := by
  cases directive with
  | source kind selectors forwarded => exact calm_instructSource _ _ _ _ _ _
  | approve id ids => exact calm_settleDecision m shown id ⟨id,words⟩
  | reject id => exact calm_settleDecision m shown id trivial

theorem calm_handle (m : Observation) {fresh : Observation} (shown : e.Shows o.host fresh) :
    Quiet (custody o start) (handle m fresh e : M o OwnerEventResult) := by
  unfold handle
  split
  · exact .pure _
  · rename_i directive words
    refine .ite (.pure _) (.bind (.look _) fun timely => .ite ?_ (.pure _))
    exact calm_instruct m shown words

theorem calm_forget (m : Observation) : Quiet (custody o start) (forget m : M o OwnerEventResult) := by
  refine .bind (.look _) fun deletes => .ite ?_ (.pure _)
  exact Quiet.bind (calm_commit fun _ _ => trivial) fun _ => .pure _

theorem calm_admitEvent (m : Observation) : Quiet (custody o start) (admitEvent m : M o OwnerEventResult) := by
  refine .bind (.look _) fun known => .bind (calm_await (calm_freshOwner m)) fun fresh => fun i _ => ?_
  refine .bind (Q := onOk fun (e : OwnerSourceEvidence) _ => e.Shows o.host fresh) (.look fun _ _ _ => ⟨rfl,rfl⟩) (fun e => ?_)
    fun _ _ _ _ => trivial
  refine (Triple.assume (P := fun _ => True) fun shown => ?_).pre fun _ _ held => ⟨held,trivial⟩
  refine Quiet.bind (calm_recordOwner e) (fun _ => ?_) i untaken
  cases known with
  | none => exact calm_handle m shown
  | some known => exact .look _

theorem calm_prepareOwnerEvent (m : Observation) :
    Quiet (custody o start) (prepareOwnerEvent m : M o OwnerEventResult) := by
  refine .bind (calm_await ?_) fun _ => .look _
  exact .ite (calm_forget m) (.bind (.look _) fun _ => .ite (calm_admitEvent m) (.pure _))

/-! ### The host's side -/

theorem calm_proposeSources (input : SourceScopeProposalInput) :
    Quiet (custody o start) (proposeSources input : M o OwnerScopeProposal) := by
  refine .bind (.check _) fun _ => .ite (.lift _) (.ite (.lift _) ?_)
  refine .bind (.gather fun candidate _ => .bind (.lift _) fun candidate => calm_verifySource _ _) fun sources => ?_
  exact Quiet.bind (calm_commit fun _ _ => trivial) fun _ => .lift _

theorem calm_getOutreachApproval (q : ApprovalQuery) :
    Quiet (custody o start) (getOutreachApproval q : M o OwnerApprovalReceipt) := by
  refine .bind (.check _) fun _ => .bind (.check _) fun receipt => .bind (calm_getMessage _) fun found => ?_
  refine .bind (.look _) fun genuine => .ite ?_ ?_
  · exact .bind (.check _) fun _ => .check _
  · exact Quiet.bind (calm_commit fun _ _ => trivial) fun _ => .lift _

/-- Binding one plan changes no plan but its own, and that one only in its task. -/
theorem backed_putPlan {plan other : SourcePlan} (taskId : String) (backed : Backed plan s)
    (known : Backed other s) : Backed other (s.bindTask plan taskId) := by
  obtain ⟨stored,found,peers,revoked,source⟩ := backed
  obtain ⟨stored',found',peers',revoked',source'⟩ := known
  unfold Backed State.bindTask State.putPlan
  by_cases same : other.id = plan.id
  · rw [same] at found' ⊢
    cases found.symm.trans found'
    exact ⟨_,Table.get_put_same _ _ _,peers.symm.trans peers',revoked.symm.trans revoked',source.symm.trans source'⟩
  · exact ⟨stored',by rw [Table.get_put_other _ _ same,found'],peers',revoked',source'⟩

def AllBacked (plans : List SourcePlan) (c : Core (registry o)) : Prop := ∀ p ∈ plans, Backed p c.state

theorem claimPlan_spec (intent : TaskIntent) {plan : SourcePlan} (member : plan ∈ plans) :
    Triple (custody o start) i (AllBacked plans) (claimPlan intent plan : M o Unit) (onOk fun _ => AllBacked plans) := by
  refine .ite (fun _ => ?_) fun _ => .pure fun _ _ held => held
  refine .act (custody_sound o start) (fun c _ held => held plan member) fun c _ held _ => ?_
  exact fun p known => backed_putPlan intent.id (held plan member) (held p known)

theorem bindPeer_spec (intent : TaskIntent) {plan : SourcePlan} (member : plan ∈ plans)
 (listed : peer ∈ plan.peers) :
    Triple (custody o start) i (AllBacked plans) (commit (.bindPeer intent plan peer) : M o Unit)
      (onOk fun _ => AllBacked plans) := by
  refine .act (custody_sound o start) (fun c _ held => ⟨held plan member,listed⟩) fun c _ held _ => ?_
  obtain ⟨policies,after,_⟩ := bindPeer_policies (o := o) (s := c.state) intent plan peer
  show ∀ p ∈ plans, Backed p (c.state.bindPeer o intent plan peer)
  rw [after]
  exact held

theorem bindPlan_spec (intent : TaskIntent) {plan : SourcePlan} (member : plan ∈ plans) :
    Triple (custody o start) i (AllBacked plans) (bindPlan intent plan : M o Unit) (onOk fun _ => AllBacked plans) := by
  refine .bind (Q := onOk fun _ => AllBacked plans) (.look fun _ _ held => held) (fun bindable => ?_) fun _ _ _ _ => trivial
  refine .ite (fun _ => ?_) fun _ => .pure fun _ _ held => held
  refine .bind (claimPlan_spec intent member) (fun _ => ?_) fun _ _ _ _ => trivial
  exact .each_keeps fun peer listed => bindPeer_spec intent member listed

theorem calm_prepareAuthority (intent : TaskIntent) :
    Quiet (custody o start) (prepareAuthority intent : M o OwnerAuthorityPreparation) := by
  intro i _
  refine .seq (Q := onOk fun plans => AllBacked plans) (.look fun c inv _ p member => ?_) fun plans => ?_
  · obtain ⟨n,stored⟩ := Table.mem_list.mp member
    refine ⟨p,?_,rfl,rfl,rfl⟩
    rw [inv.keyed.plans stored,stored]
  refine .seq (Q := onOk fun _ => AllBacked plans) ?_ fun _ => .look fun _ _ _ => trivial
  refine .each_keeps fun plan member => .ite (fun _ => bindPlan_spec intent member) fun _ => ?_
  exact .pure fun _ _ held => held

theorem calm_operation (op : Op) : Quiet (custody o start) (operation o op) := by
  have discarded : ∀ {β : Type} {m : M o β}, Quiet (custody o start) m → Quiet (custody o start) (discard m) :=
    fun quiet => .bind quiet fun _ => .pure ()
  cases op with
  | prepareOwnerEvent m => exact discarded (calm_prepareOwnerEvent m)
  | proposeSources input => exact discarded (calm_proposeSources input)
  | proposeApproval input => exact discarded (calm_commit fun _ _ => trivial)
  | registerCard id ref => exact discarded (calm_commit fun _ _ => trivial)
  | recordPublication id publication => exact discarded (calm_commit fun _ _ => trivial)
  | revokeOwnerSource ref reason => exact discarded (calm_commit fun _ _ => trivial)
  | revokeSource peerId reason => exact discarded (calm_commit fun _ _ => trivial)
  | prepareAuthority intent => exact discarded (calm_prepareAuthority intent)
  | getOutreachApproval q => exact discarded (calm_getOutreachApproval q)

end walks

/-! ## Every run -/

theorem body_safe (op : Op) (i : Nat) (c : Core (registry o)) (free : ¬(custody o start).taken i)
    (inv : (custody o start).inv c) : Safe (custody o start) i (body o op) c :=
  (calm_operation op i free).safe inv trivial

theorem boot_kept (around : Surroundings) (now : Time) : Kept o (boot around now) ⟨boot around now,[]⟩ := by
  refine ⟨⟨fun found => ?_,fun found => ?_,fun found => ?_,fun found => ?_⟩,Core.replays_initial _,fun found => ?_⟩
  all_goals
    simp only [boot,Table.get_empty] at found
    cases found

theorem boot_governed {now : Time}
    (run : World.Leads (body o) (.initial (boot around now)) w) : w.Governed (custody o (boot around now)) :=
  World.Governed.leads (custody_sound o _) body_safe
    (World.initial_governed (boot_kept around now) fun _ => id) run

end Neurobro.OwnerControls
