import Neurobro.OwnerControls.Approvals

/-! The record of a proposal. Decisions and cards never go back, since every branch that
writes them reads the stored proposal first. A rejection writes the copy it began with, so
that it can take back what was published while it waited. -/
namespace Neurobro.OwnerControls

open Coop
open Agent (Err Time MessageRef refKey)

variable {o : Options} {s s' : State} {start : State} {i : Nat} {id : Name}

/-- A later record of a proposal against an earlier one. -/
structure OwnerScopeProposal.Advances (old new : OwnerScopeProposal) : Prop where
  settled : old.state ≠ .pending → new.state = old.state
  card : ∀ ref, old.cardRef = some ref → ∃ ref', new.cardRef = some ref' ∧ sameRef ref ref' = true
  published : ∀ publication, old.publication = some publication →
    ∃ later, new.publication = some later ∧ later.Follows publication

/-- No record of a proposal goes back from one state to the other. -/
def Forward (s s' : State) : Prop :=
  ∀ id old, s.proposals.get id = some old → ∃ new, s'.proposals.get id = some new ∧ old.Advances new

/-- The proposal was decided. -/
def decides (id : Name) : Event (registry o) → Bool
  | .act _ (.rejectProposal p) _ => p.id = id
  | .act _ (.acceptSources _ _ n) r => n = id && r.toOption.any (·.disposition = .accepted)
  | .act _ (.acceptOutreach _ _ p _ _) r => p.id = id && r.toOption.isSome
  | _ => false

/-- The proposal was given a receipt. -/
def receipts (id : Name) : Event (registry o) → Bool
  | .act _ (.acceptOutreach _ _ p _ _) r => p.id = id && r.toOption.any (·.receipt.isSome)
  | _ => false

/-- A rejection takes nothing back: the publication of its copy follows the stored one. -/
def UpToDate : Cmd → State → Prop
  | .rejectProposal p,s => ∀ stored publication, s.proposals.get p.id = some stored →
      stored.publication = some publication → ∃ copied, p.publication = some copied ∧ copied.Follows publication
  | _,_ => True

/-! ## One commit -/

theorem OwnerProposalPublication.Follows.refl (p : OwnerProposalPublication) : p.Follows p := by
  constructor
  · have kept : ∀ part, keepsPart part part = true := by
      intro part
      cases part <;> simp [keepsPart]
    simp [OwnerProposalPublication.keeps,kept]
  · exact fun verified => verified

theorem keepsPart_trans {first second third : Option OwnerProposalPublicationPart} (early : keepsPart first second = true)
    (late : keepsPart second third = true) : keepsPart first third = true := by
  cases first with
  | none => rfl
  | some part =>
    have same : second = some part := by simpa [keepsPart] using early
    subst same
    simpa [keepsPart] using late

theorem OwnerProposalPublication.Follows.trans {first second third : OwnerProposalPublication}
    (early : second.Follows first) (late : third.Follows second) : third.Follows first := by
  obtain ⟨kept,verified⟩ := early
  obtain ⟨kept',verified'⟩ := late
  refine ⟨?_,fun was => verified' (verified was)⟩
  unfold OwnerProposalPublication.keeps at *
  rw [Bool.and_eq_true] at *
  exact ⟨keepsPart_trans kept.1 kept'.1,keepsPart_trans kept.2 kept'.2⟩

theorem OwnerScopeProposal.Advances.refl (p : OwnerScopeProposal) : p.Advances p :=
  ⟨fun _ => rfl,fun ref carded => ⟨ref,carded,by simp [sameRef]⟩,
    fun publication published => ⟨publication,published,.refl publication⟩⟩

theorem OwnerScopeProposal.Advances.trans {first second third : OwnerScopeProposal} (early : first.Advances second)
    (late : second.Advances third) : first.Advances third := by
  constructor
  · intro settled
    have same := early.settled settled
    rw [late.settled (same ▸ settled),same]
  · intro ref carded
    obtain ⟨ref',carded',same⟩ := early.card ref carded
    obtain ⟨ref'',carded'',same'⟩ := late.card ref' carded'
    exact ⟨ref'',carded'',by simp_all [sameRef]⟩
  · intro publication published
    obtain ⟨next,published',follows⟩ := early.published publication published
    obtain ⟨last,published'',follows'⟩ := late.published next published'
    exact ⟨last,published'',follows.trans follows'⟩

theorem Forward.refl (s : State) : Forward s s := fun _ old found => ⟨old,found,.refl old⟩

theorem Forward.trans {s'' : State} (early : Forward s s') (late : Forward s' s'') : Forward s s'' := by
  intro id old found
  obtain ⟨new,found',advances⟩ := early id old found
  obtain ⟨last,found'',advances'⟩ := late id new found'
  exact ⟨last,found'',advances.trans advances'⟩

/-- The row of a proposal after another row was saved. -/
theorem row_put {other : State} (rows : other.proposals = s.proposals)
    (found : s.proposals.get id = some old) :
    ∃ new, (other.putProposal p).proposals.get id = some new ∧ ((id = p.id ∧ new = p) ∨ new = old) := by
  rw [putProposal_get,rows]
  split
  · rename_i same
    exact ⟨p,rfl,.inl ⟨same,rfl⟩⟩
  · exact ⟨old,found,.inr rfl⟩

/-- Where the publication of a stored proposal comes from after a commit. -/
theorem publication_written (keyed : Keyed s) (step : Step o s cmd s')
    (found : s.proposals.get id = some old) : ∃ new, s'.proposals.get id = some new ∧
      (new.publication = old.publication ∨
        (∃ publication, new.publication = some publication ∧ ∀ former, old.publication = some former →
          publication.Follows former) ∨
        ∃ p, cmd = .rejectProposal p ∧ p.id = id ∧ new.publication = p.publication) := by
  have same : ∀ {p : OwnerScopeProposal}, s.proposals.get p.id = some p → id = p.id → p = old := by
    rintro p stored rfl
    exact Option.some.inj (stored.symm.trans found)
  cases step with
  | none | withdrawn | unsubscribed | recorded | noted | planned | bound => exact ⟨old,found,.inl rfl⟩
  | policed intent plan peer =>
    obtain ⟨policies,after,_⟩ := bindPeer_policies (o := o) (s := s) intent plan peer
    rw [after]
    exact ⟨old,found,.inl rfl⟩
  | @opened _ p _ opens =>
    rw [opens.after]
    have other : id ≠ p.id := by
      rintro rfl
      exact Nat.lt_irrefl s.fresh (opens.named ▸ keyed.drawn found)
    exact ⟨old,by rw [putProposal_get,if_neg other]; exact found,.inl rfl⟩
  | @carded n ref _ cards =>
    obtain ⟨p,stored,_,rfl⟩ := cards.stored
    rw [← keyed.proposals stored] at stored
    obtain ⟨new,row,⟨here,rfl⟩ | rfl⟩ := row_put (p := { p with cardRef := some ref }) rfl found
    · have mine : p = old := same stored here
      exact ⟨_,row,.inl (by rw [← mine])⟩
    · exact ⟨_,row,.inl rfl⟩
  | @published n publication _ publishes =>
    obtain ⟨p,stored,follows,rfl⟩ := publishes.stored
    rw [← keyed.proposals stored] at stored
    obtain ⟨new,row,⟨here,rfl⟩ | rfl⟩ := row_put (p := { p with publication := some publication }) rfl found
    · exact ⟨_,row,.inr (.inl ⟨publication,rfl,same stored here ▸ follows⟩)⟩
    · exact ⟨_,row,.inl rfl⟩
  | rejected p =>
    obtain ⟨new,row,⟨here,rfl⟩ | rfl⟩ := row_put (p := { p with state := .rejected }) rfl found
    · exact ⟨_,row,.inr (.inr ⟨p,rfl,here.symm,rfl⟩)⟩
    · exact ⟨_,row,.inl rfl⟩
  | accepted _ accepts =>
    obtain ⟨current,peers,monitor,_,confirms,_,_,_,rfl⟩ := accepts.current
    obtain ⟨_,_,after,_⟩ := adoptPlan_adds (o := o) (s := s) current.context.taskId
      (State.proposalPlan o current _ peers monitor)
    rw [after]
    obtain ⟨new,row,⟨here,rfl⟩ | rfl⟩ := row_put (p := { current with state := .accepted }) rfl found
    · have mine : current = old := same confirms.stored here
      exact ⟨_,row,.inl (by rw [← mine])⟩
    · exact ⟨_,row,.inl rfl⟩
  | @granted _ _ _ _ selected _ _ _ grants =>
    obtain ⟨current,_,confirms,rfl⟩ := grants.current
    obtain ⟨new,row,⟨here,rfl⟩ | rfl⟩ := row_put (p := { current with
      state := .accepted, receiptId := some s.fresh, selectedRecipientIds := some selected }) rfl found
    · have mine : current = old := same confirms.stored here
      exact ⟨_,row,.inl (by rw [← mine])⟩
    · exact ⟨_,row,.inl rfl⟩

theorem forward_act (kept : Kept o start c) (may : Permits o start i c cmd)
    (upToDate : UpToDate cmd c.state) : Forward c.state (c.act i cmd).state := by
  intro id old found
  have step : Step o c.state cmd (c.act i cmd).state := exec_step kept.keyed cmd
  obtain ⟨new,found',goes⟩ := proposal_goes kept.keyed step (Permits.copied may) found
  obtain ⟨same,row,written⟩ := publication_written kept.keyed step found
  cases found'.symm.trans row
  refine ⟨new,found',goes.settled,fun ref carded => ?_,fun publication published => ?_⟩
  · have known : old.card = some (refKey ref) := by simp [OwnerScopeProposal.card,carded]
    have kept := goes.card (by rw [known]; rfl)
    rw [known] at kept
    obtain ⟨ref',carded',same⟩ := Option.map_eq_some_iff.mp kept
    exact ⟨ref',carded',by simp [sameRef,same]⟩
  · rcases written with kept | ⟨later,now,follows⟩ | ⟨p,rfl,rfl,copied⟩
    · exact ⟨publication,kept.trans published,.refl publication⟩
    · exact ⟨later,now,follows publication published⟩
    · obtain ⟨later,carried,follows⟩ := upToDate old publication found published
      exact ⟨later,copied.trans carried,follows⟩

/-! ## Decisions -/

/-- A decided proposal is settled. -/
def Settled (id : Name) (c : Core (registry o)) : Prop :=
  c.Happened (fun x => decides id x = true) → ∃ p, c.state.proposals.get id = some p ∧ p.state ≠ .pending

/-- A decision finds its proposal pending and leaves it settled. -/
theorem decides_pending (kept : Kept o start c) (may : Permits o start i c cmd)
    (decided : decides id (.act i cmd (exec o cmd c.state).1 : Event (registry o)) = true) :
    (∃ p, c.state.proposals.get id = some p ∧ p.state = .pending) ∧
      ∃ p, (c.act i cmd).state.proposals.get id = some p ∧ p.state ≠ .pending := by
  cases cmd with
  | rejectProposal p =>
    obtain rfl : p.id = id := by simpa [decides] using decided
    obtain ⟨stored,found,_,pending⟩ := may
    exact ⟨⟨stored,found,pending⟩,{ p with state := .rejected },Table.get_put_same _ _ _,by simp⟩
  | acceptSources m e n =>
    have ran : n = id ∧ ((transaction c.state (c.state.acceptSources o m e n)).1.toOption.any (·.disposition = .accepted)) = true := by
      simpa [decides,exec] using decided
    obtain ⟨rfl,accepted⟩ := ran
    cases answer : c.state.acceptSources o m e n with
    | error err => simp [answer,transaction,Except.toOption] at accepted
    | ok ran =>
      obtain ⟨result,after⟩ := ran
      rcases acceptSources_ok kept.keyed answer with ⟨rfl,_⟩ | accepts
      · simp [answer,transaction,Except.toOption,State.overdue,ambiguous] at accepted
      · obtain ⟨current,peers,monitor,rfl,confirms,_,_,_,rfl⟩ := accepts.current
        refine ⟨⟨current,confirms.stored,confirms.pending⟩,{ current with state := .accepted },?_,by simp⟩
        show (transaction c.state (c.state.acceptSources o m e current.id)).2.proposals.get current.id = _
        rw [answer]
        exact Table.get_put_same _ _ _
  | acceptOutreach m e p batch selected =>
    have ran : p.id = id ∧ (transaction c.state (c.state.acceptOutreach o m e p batch selected)).1.toOption.isSome = true := by
      simpa [decides,exec] using decided
    obtain ⟨rfl,accepted⟩ := ran
    cases answer : c.state.acceptOutreach o m e p batch selected with
    | error err => simp [answer,transaction,Except.toOption] at accepted
    | ok ran =>
      obtain ⟨result,after⟩ := ran
      obtain ⟨current,named,confirms,rfl⟩ := (acceptOutreach_ok kept.keyed answer).current
      rw [← named]
      refine ⟨⟨current,confirms.stored,confirms.pending⟩,{ current with
        state := .accepted, receiptId := some c.state.fresh, selectedRecipientIds := some selected },?_,?_⟩
      · show (transaction c.state (c.state.acceptOutreach o m e p batch selected)).2.proposals.get current.id = _
        rw [answer]
        exact Table.get_put_same _ _ _
      · simp
  | _ => cases decided

theorem receipts_decides (granted : receipts id x = true) : decides id x = true := by
  cases x with
  | act i cmd r =>
    cases cmd with
    | acceptOutreach m e p batch selected =>
      cases r with
      | error e => simp [receipts,Except.toOption] at granted
      | ok result =>
        have named : p.id = id := by
          simp only [receipts,Bool.and_eq_true,decide_eq_true_eq] at granted
          exact granted.1
        simp [decides,named,Except.toOption]
    | _ => cases granted
  | _ => cases granted

/-! ## Every run -/

/-- Decisions were taken once each, and the proposals they settled are settled. -/
def Decided (c : Core (registry o)) : Prop := ∀ id, Settled id c ∧ c.AtMostOnce (decides id)

theorem decided_records {c c' : Core (registry o)} (mark : c.Records c' x)
    (decided : Decided c) (forward : Forward c.state c'.state)
    (new : ∀ id, decides id x = true → (∃ p, c.state.proposals.get id = some p ∧ p.state = .pending) ∧
      ∃ p, c'.state.proposals.get id = some p ∧ p.state ≠ .pending) : Decided c' := by
  intro id
  obtain ⟨settled,once⟩ := decided id
  constructor
  · rintro ⟨y,member,happened⟩
    have grown : c'.trace = x :: c.trace := mark
    rw [grown] at member
    rcases List.mem_cons.mp member with rfl | before
    · exact (new id happened).2
    · obtain ⟨p,found,done⟩ := settled ⟨y,before,happened⟩
      obtain ⟨p',found',advances⟩ := forward id p found
      exact ⟨p',found',advances.settled done ▸ done⟩
  · apply once.records mark
    intro happened before
    obtain ⟨p,found,pending⟩ := (new id happened).1
    obtain ⟨p',found',done⟩ := settled before
    cases found.symm.trans found'
    exact done pending

/-- What a run whose rejections are up to date has kept since it left `c₀`. -/
structure Progress (c₀ c : Core (registry o)) : Prop where
  forward : Forward c₀.state c.state
  decided : Decided c

theorem progress_change {c₀ c c' : Core (registry o)}
    (change : Change (custody o start) (fun cmd (c : Core (registry o)) => UpToDate cmd c.state) c c')
    (progress : Progress c₀ c) : Progress c₀ c' := by
  have idle : ∀ {x : Event (registry o)}, c.Records c' x → c'.state.proposals = c.state.proposals →
      (∀ id, decides id x = false) → Progress c₀ c' := by
    intro x mark rows no
    have stays : Forward c.state c'.state := fun id old found => ⟨old,by rw [rows]; exact found,.refl old⟩
    refine ⟨progress.forward.trans stays,decided_records mark progress.decided stays fun id yes => ?_⟩
    rw [no] at yes
    contradiction
  cases change with
  | act i cmd inv may upToDate =>
    have moves := forward_act inv may upToDate
    exact ⟨progress.forward.trans moves,
      decided_records (c.records_act i cmd) progress.decided moves fun id yes => decides_pending inv may yes⟩
  | call i q => exact idle (c.records_call i q) rfl fun _ => rfl
  | reply i q r => exact idle (c.records_reply i q r) rfl fun _ => rfl
  | shock x => cases x <;> exact idle (c.records_shock _) rfl fun _ => rfl
  | crash => exact idle c.records_crash rfl fun _ => rfl

/-- The record of a proposal goes forward: it is decided at most once, by at most one
receipt, keeps its card, and its publication keeps what was recorded. -/
def NeverBack (c c' : Core (registry o)) : Prop :=
  Forward c.state c'.state ∧ ∀ id, c'.AtMostOnce (decides id) ∧ c'.AtMostOnce (receipts id)

theorem record_never_back {around : Surroundings} {now : Time} {w w' : World (registry o)}
    (before : World.LeadsIf (body o) (fun cmd c => UpToDate cmd c.state) (.initial (boot around now)) w)
    (after : World.LeadsIf (body o) (fun cmd c => UpToDate cmd c.state) w w') : NeverBack w.core w'.core := by
  have initial : World.Governed (custody o (boot around now)) (.initial (boot around now)) :=
    World.initial_governed (boot_kept around now) fun _ => id
  obtain ⟨governed,early⟩ := initial.leadsIf (custody_sound o _) body_safe before
  obtain ⟨_,late⟩ := governed.leadsIf (custody_sound o _) body_safe after
  have none : Progress (o := o) ⟨boot around now,[]⟩ ⟨boot around now,[]⟩ :=
    ⟨.refl _,fun id => ⟨fun ⟨x,member,_⟩ => by simp at member,by simp [Core.AtMostOnce]⟩⟩
  have reached := early.keeps (fun _ _ change held => progress_change change held) none
  have progress : Progress w.core w'.core :=
    late.keeps (fun _ _ change held => progress_change change held) ⟨.refl _,reached.decided⟩
  refine ⟨progress.forward,fun id => ⟨(progress.decided id).2,?_⟩⟩
  have fewer : w'.core.trace.countP (receipts id) ≤ w'.core.trace.countP (decides id) :=
    List.countP_mono_left fun x _ granted => receipts_decides granted
  exact fewer.trans (progress.decided id).2

/-! ## A rejection from an old copy -/

def no : Observation := ownerSays "3" "no" "1000" (some (privateRef "2"))

/-- The card of the batch and its manifest, as the host read them back. -/
def verifiedCard : OwnerProposalPublication where
  state := .verified
  stage := .card
  updatedAt := "1000"
  manifest := some ⟨"manifest",digits 'a',none⟩
  card := some ⟨"card",digits 'b',none⟩

def carded : List (Choice (registry .plain) Op) :=
  [.invoke (.proposeApproval ⟨plainContext,plainBatch,none,none⟩),.invoke (.registerCard 0 (privateRef "2"))]

/-- The rejection waits for its card while the publication is verified. -/
def publishedMeanwhile : List (Choice (registry .plain) Op) :=
  let answer := telegram [card,no] 2
  carded ++ [.invoke (.prepareOwnerEvent no),answer,answer,.invoke (.recordPublication 0 verifiedCard)]

def publicationOf (s : State) : Option OwnerProposalPublication := (s.proposals.get 0).bind OwnerScopeProposal.publication

theorem rejection_takes_back : ∃ w w' : World (registry .plain), Reachable .plain w ∧
    World.Leads (body .plain) w w' ∧ ¬NeverBack w.core w'.core := by
  have played : (World.play (body .plain) 200 200 publishedMeanwhile (.initial (boot .plain 1000))).any fun w =>
      publicationOf w.core.state = some verifiedCard &&
        (World.play (body .plain) 200 200 [telegram [card,no] 2] w).any fun w' =>
          decide (publicationOf w'.core.state = none) := by decide +kernel
  obtain ⟨w,run,holds⟩ := World.play_any played
  obtain ⟨verified,played⟩ := Bool.and_eq_true_iff.mp holds
  obtain ⟨w',rest,lost⟩ := World.play_any played
  refine ⟨w,w',⟨_,_,run⟩,rest,fun back => ?_⟩
  obtain ⟨old,found,published⟩ := Option.bind_eq_some_iff.mp (of_decide_eq_true verified)
  obtain ⟨new,found',advances⟩ := back.1 0 old found
  obtain ⟨later,kept,_⟩ := advances.published _ published
  have gone : (w'.core.state.proposals.get 0).bind OwnerScopeProposal.publication = none := of_decide_eq_true lost
  rw [found',Option.bind_some,kept] at gone
  exact Option.some_ne_none later gone

def rejects : Event (registry o) → Bool
  | .act _ (.rejectProposal _) _ => true
  | _ => false

theorem upToDate_free (i : Nat) (cmd : Cmd) (r : cmd.Result) (c : Core (registry o))
    (clear : !rejects (.act i cmd r : Event (registry o))) : UpToDate cmd c.state := by
  cases cmd with
  | rejectProposal p => simp [rejects] at clear
  | _ => trivial

theorem record_never_back_accepted : ∃ w w' : World (registry .plain), NeverBack w.core w'.core ∧
    publicationOf w.core.state = some verifiedCard ∧ (w'.core.state.proposals.get 0).any (·.state = .accepted) := by
  let answer := telegram [card,yes] 3
  have played : (World.play (body .plain) 200 200 (carded ++ [.invoke (.recordPublication 0 verifiedCard)])
      (.initial (boot .plain 1000))).any fun w =>
      w.core.trace.all (fun x => !rejects x) && publicationOf w.core.state = some verifiedCard &&
        (World.play (body .plain) 200 200 [.invoke (.prepareOwnerEvent yes),answer,answer,answer] w).any fun w' =>
          w'.core.trace.all (fun x => !rejects x) && (w'.core.state.proposals.get 0).any (·.state = .accepted) := by
    decide +kernel
  obtain ⟨w,first,holds⟩ := World.play_any played
  obtain ⟨holds,played⟩ := Bool.and_eq_true_iff.mp holds
  obtain ⟨clear,published⟩ := Bool.and_eq_true_iff.mp holds
  obtain ⟨w',second,holds⟩ := World.play_any played
  obtain ⟨clear',accepted⟩ := Bool.and_eq_true_iff.mp holds
  obtain ⟨later,grown⟩ := second.trace
  have fresh : later.all fun x => !rejects x := by
    rw [← grown,List.all_append,Bool.and_eq_true] at clear'
    exact clear'.1
  exact ⟨w,w',record_never_back (first.harmless upToDate_free clear) (second.harmless_since upToDate_free grown fresh),
    of_decide_eq_true published,accepted⟩

end Neurobro.OwnerControls
