import Neurobro.Outreach.Conduct

/-! Every operation of outreach keeps the rules. Only a drain reserves, and what it goes by
lasts through its waits. -/
namespace Neurobro.Outreach

open Coop List
open Agent (Err Time MessageRef trim)
open Jobs (ToolContext)

variable {o : Options} {start : State} {i : Nat}

/-! ## What lasts -/

theorem move_carries (move : Move (conduct o start) who c c') : Carries c.state c'.state:= by
  cases move with
  | act inv may => exact exec_carries _ (Permits.fair may)
  | call | reply => exact carries_rows rfl rfl
  | shock x => cases x <;> exact carries_rows rfl rfl

theorem filed_lasting (key : String × Int) (m : OutreachManifest) :
    Lasting (conduct o start) fun c => c.state.manifests.get key = some m :=
  fun _ _ _ move found => (move_carries move).manifests found

theorem spent_lasting (id recipientId : String) (attachment : Option Nat) : Lasting (conduct o start) fun c =>
    c.Replays start ∧ ∃ b, c.state.batches.get id = some b ∧ b.Orderly ∧ b.Spent recipientId attachment := by
  rintro who c c' move ⟨replays,b,found,orderly,spent⟩
  obtain ⟨b',found',continues⟩ := (move_carries move).batches found
  exact ⟨replays.move move,b',found',continues.orderly orderly,continues.spent orderly _ _ spent⟩

theorem trace_grows (move : Move (conduct o start) who c c') : ∃ x, c'.trace = x :: c.trace:= move.records

/-- A batch as a drain read it: its manifest stays, and so does what was known of the text of
the recipient it chose. -/
structure Chosen (o : Options) (start : State) (batch : OutreachBatch) (m : OutreachManifest) (p : Progress)
    (c : Core (outreach o)) : Prop where
  filed : c.state.manifests.get (batch.id,m.revision) = some m
  verified : p.textState = some .verified → ∃ later before b p', c.trace = later ++ before ∧
    (stateAt start before).batches.get batch.id = some b ∧ b.recipients.find? (·.id = p.id) = some p' ∧
      p'.textState = some .verified
  spent : p.textState = some .verified →
    c.Replays start ∧ ∃ b, c.state.batches.get batch.id = some b ∧ b.Orderly ∧ b.Spent p.id none

theorem chosen_lasting (batch : OutreachBatch) (m : OutreachManifest) (p : Progress) :
    Lasting (conduct o start) (Chosen o start batch m p) := by
  rintro who c c' move ⟨filed,verified,spent⟩
  refine ⟨filed_lasting _ _ move filed,fun text => ?_,fun text => spent_lasting _ _ _ move (spent text)⟩
  obtain ⟨later,before,b,p',split,rest⟩ := verified text
  obtain ⟨x,grown⟩ := trace_grows move
  exact ⟨x :: later,before,b,p',by rw [grown,split]; rfl,rest⟩

/-- The fiber was shown a receipt for this selection of the manifest. -/
def Shown (o : Options) (i : Nat) (m : OutreachManifest) (context : ToolContext) (receiptId : String)
    (selected : List String) (c : Core (outreach o)) : Prop :=
  ∃ receipt, .reply i (.getOutreachApproval (m.query context receiptId selected)) (.ok receipt) ∈ c.trace ∧
    m.approved o (m.query context receiptId selected) receipt = .ok receipt

theorem shown_lasting (m : OutreachManifest) (context : ToolContext) (receiptId : String) (selected : List String) :
    Lasting (conduct o start) (Shown o i m context receiptId selected) := by
  rintro who c c' move ⟨receipt,member,approved⟩
  obtain ⟨x,grown⟩ := trace_grows move
  exact ⟨receipt,by rw [grown]; exact mem_cons_of_mem _ member,approved⟩

theorem approved_ok {m : OutreachManifest} {receipt given : OwnerApprovalReceipt}
    (h : m.approved o q receipt = .ok given) : given = receipt ∧ receipt.binds q = true := by
  obtain ⟨binds,h⟩ := guard_eq_ok.mp h
  obtain ⟨_,_,h⟩ := bind_ok h
  exact ⟨(Except.ok.inj h).symm,by simpa using binds⟩

theorem binds_selection {receipt : OwnerApprovalReceipt} (binds : receipt.binds q = true)
    {id : String} (selected : id ∈ q.selection) : id ∈ receipt.selectedRecipientIds := by
  simp only [OwnerApprovalReceipt.binds,Bool.and_eq_true] at binds
  exact (isPerm_iff.mp binds.2).mem_iff.mpr selected

theorem nextPiece_text {p : Progress} (h : p.nextPiece = .ok attachment)
    (attached : attachment.isSome) : p.textState = some .verified := by
  unfold RecipientProgress.nextPiece at h
  split at h
  · split at h
    · assumption
    · cases Except.ok.inj h
      contradiction
  · cases Except.ok.inj h
    contradiction

/-- A reservation drawn up from a batch that was read and a receipt that was shown. -/
theorem reservation_prepared {m : OutreachManifest} {context : ToolContext}
 (made : reservation o batch m receiptId context p = .ok r)
    (member : p.id ∈ batch.selectedRecipientIds) (chosen : Chosen o start batch m p c)
    (shown : Shown o i m context receiptId batch.selectedRecipientIds c) (inv : Kept o start c) : Prepared o start i r c := by
  unfold reservation at made
  split at made
  · contradiction
  rename_i recipient found
  obtain ⟨attachment,piece,made⟩ := bind_ok made
  obtain ⟨request,asked,made⟩ := bind_ok made
  cases Except.ok.inj made
  have named : recipient.id = p.id := by simpa using List.find?_some found
  obtain ⟨receipt,answered,approved⟩ := shown
  have filed : m.batchId = batch.id := (Prod.mk.inj (inv.filed chosen.filed)).1.symm
  refine ⟨chosen.filed,filed,mem_of_find?_eq_some found,asked,⟨_,receipt,answered,approved,?_⟩,fun attached => ?_,
    fun attached => ?_⟩
  · rw [named]
    exact binds_selection (approved_ok approved).2 member
  · obtain ⟨later,before,b,p',split,stored,there,verified⟩ := chosen.verified (nextPiece_text piece attached)
    exact ⟨later,before,b,p',split,stored,by simpa [named] using there,verified⟩
  · obtain ⟨_,b,stored,_,spent⟩ := chosen.spent (nextPiece_text piece attached)
    exact ⟨b,stored,by simpa [named] using spent⟩

/-! ## Quiet operations -/

section walks

variable {α : Type}

theorem untaken : ¬(conduct o start).taken i := fun no => no

theorem calm_commit (free : ∀ i c, Permits o start i c cmd) : Quiet (conduct o start) (commit cmd : M o cmd.Result):=
  .act (conduct_sound o start) fun i c _ => free i c

theorem calm_ask {call : Call} (free : ∀ i c, Admits o i c call) : Quiet (conduct o start) (ask call : M o call.Reply) :=
  .call (conduct_sound o start) fun i c _ => free i c

theorem calm_await (h : Quiet (conduct o start) m) : Quiet (conduct o start) (Async.await m) :=
  .await (conduct_sound o start) h

theorem calm_resolveForSend (context : ToolContext) (artifactId : String) :
    Quiet (conduct o start) (resolveForSend context artifactId : M o ResolvedFile) :=
  .bind (calm_ask fun _ _ => trivial) fun _ => .lift _

theorem calm_validateAttachment (context : ToolContext) (route : Route) (draft : AttachmentDraft) :
    Quiet (conduct o start) (validateAttachment context route draft : M o OutreachAttachment) := by
  refine .ite (.lift _) (.bind (.lift _) fun _ => .bind (calm_resolveForSend _ _) fun _ => .ite (.lift _) ?_)
  exact .bind (.check _) fun _ => .lift _

theorem calm_validateRecipient (context : ToolContext) (r : RecipientDraft) :
    Quiet (conduct o start) (validateRecipient context r : M o OutreachRecipient) := by
  refine .bind (.lift _) fun _ => .bind (.lift _) fun _ => .bind (.lift _) fun _ => .bind (.lift _) fun _ => ?_
  refine .ite (.lift _) (.bind (.gather fun draft _ => calm_validateAttachment _ _ draft) fun _ => ?_)
  exact .ite (.lift _) (.pure _)

/-- Recipients of a draft that passed are named apart. -/
theorem validateDraft_spec (context : ToolContext) (input : DraftInput) :
    Triple (conduct o start) i (fun _ => True) (validateDraft context input : M o OutreachDraft)
      (onOk fun draft _ => (draft.recipients.map OutreachRecipient.id).Nodup) := by
  refine .bind (Q := fun _ _ => True) (.lift fun _ _ _ => trivial) (fun _ => ?_) fun _ _ _ _ => trivial
  refine .bind (Q := fun _ _ => True) ?_ (fun recipients => ?_) fun _ _ _ _ => trivial
  · exact (calm_await (.gather fun r _ => calm_validateRecipient _ r)).triple untaken
  refine .bind (Q := onOk fun _ _ => (recipients.map OutreachRecipient.id).Nodup) (.lift fun _ _ _ => ?_)
    (fun _ => .pure fun _ _ apart => apart) fun _ _ _ _ => trivial
  unfold checkRecipients
  split
  · trivial
  · rename_i apart
    simp only [Bool.or_eq_true,not_or] at apart
    simpa [onOk] using apart.1

theorem awaitDraft_spec (context : ToolContext) (input : DraftInput) :
    Triple (conduct o start) i (fun _ => True) (Async.await (validateDraft context input) : M o OutreachDraft)
      (onOk fun draft _ => (draft.recipients.map OutreachRecipient.id).Nodup) := by
  refine .await (conduct_sound o start) (validateDraft_spec context input) fun r => ?_
  cases r with
  | error e => exact .top
  | ok draft => exact fun _ _ _ _ _ apart => apart

theorem newManifest_ok {now : Time} {context : ToolContext} {revision : Int}
 (made : newManifest h now context batchId revision draft = .ok m) :
    m.batchId = batchId ∧ m.revision = revision ∧
      (m.recipients.map fun r => r.id) = draft.recipients.map OutreachRecipient.id := by
  obtain ⟨recipients,rows,made⟩ := bind_ok made
  obtain ⟨hash,_,made⟩ := bind_ok made
  cases Except.ok.inj made
  have same : List.Forall₂ (fun (a : OutreachRecipient) (b : ManifestRecipient) => a.id = b.id) draft.recipients recipients := by
    apply forall₂_mapM rows
    intro a b of
    obtain ⟨payloadHash,_,of⟩ := bind_ok of
    cases Except.ok.inj of
    rfl
  exact ⟨rfl,rfl,(forall₂_map_eq same fun _ _ named => named).symm⟩

theorem calm_inspect (context : ToolContext) (batchId : String) :
    Quiet (conduct o start) (inspect context batchId : M o OutreachStatus) := by
  refine .bind (.check _) fun loaded => ?_
  exact Quiet.bind (calm_commit fun _ _ => trivial) fun _ => .bind (.lift _) fun _ => .pure _

theorem calm_propose (context : ToolContext) (input : DraftInput) :
    Quiet (conduct o start) (propose context input : M o OutreachStatus) := by
  intro i _
  refine .seq (awaitDraft_spec context input) fun draft => ?_
  refine .seq (Q := onOk fun _ _ => (draft.recipients.map OutreachRecipient.id).Nodup)
    (.lift fun _ _ apart => ?_) fun batchId => ?_
  · cases batchName o.host context draft with
    | error e => trivial
    | ok batchId => exact apart
  refine .seq (Q := onOk fun m c => (Cmd.propose m).Fair c.state) (.check fun c _ apart => ?_) fun m => ?_
  · cases made : newManifest o.host c.state.now context batchId 1 draft with
    | error e => trivial
    | ok m =>
      obtain ⟨_,first,ids⟩ := newManifest_ok made
      exact ⟨first,ids ▸ apart⟩
  refine .seq (Q := fun _ _ => True) (.act (conduct_sound o start) (fun _ _ fair => fair) fun _ _ _ _ => trivial)
    fun _ => (calm_inspect context batchId).triple untaken

/-! ## Revising -/

theorem load_ok {s : State} {context : ToolContext}
    (h : s.load context batchId = .ok (batch,m)) : s.batches.get batchId = some batch ∧
      s.manifests.get (batch.id,batch.manifestRevision) = some m := by
  obtain ⟨_,_,h⟩ := bind_ok h
  split at h
  · contradiction
  rename_i found
  obtain ⟨_,h⟩ := guard_eq_ok.mp h
  split at h
  · contradiction
  rename_i filed
  obtain ⟨_,h⟩ := guard_eq_ok.mp h
  cases Except.ok.inj h
  exact ⟨found,filed⟩

theorem calm_revise (context : ToolContext) (batchId : String) (expectedRevision : Int) (input : DraftInput) :
    Quiet (conduct o start) (revise context batchId expectedRevision input : M o OutreachStatus) := by
  intro i _
  refine .seq (awaitDraft_spec context input) fun draft => ?_
  refine .seq (Q := onOk fun loaded (c : Core (outreach o)) => (draft.recipients.map OutreachRecipient.id).Nodup ∧
    c.state.batches.get batchId = some loaded.1) (.check fun c _ apart => ?_) fun loaded => ?_
  · cases read : c.state.load context batchId with
    | error e => trivial
    | ok loaded => exact ⟨apart,(load_ok read).1⟩
  obtain ⟨batch,manifest⟩ := loaded
  refine .ite (fun _ => .lift fun _ _ _ => trivial) fun free => ?_
  simp only [Bool.or_eq_true,not_or,decide_eq_true_eq] at free
  refine .seq (Q := onOk fun m c => (Cmd.revise batchId batch.version m).Fair c.state) (.check fun c _ held => ?_) fun m => ?_
  · obtain ⟨apart,stored⟩ := held
    cases made : newManifest o.host c.state.now context batchId (expectedRevision + 1) draft with
    | error e => trivial
    | ok m =>
      obtain ⟨named,_,ids⟩ := newManifest_ok made
      refine ⟨ids ▸ apart,named,fun b found _ => ?_⟩
      obtain rfl : batch = b := Option.some.inj (stored.symm.trans found)
      refine ⟨free.1.2,fun p member => ?_⟩
      by_contra reserved
      exact free.2 (any_eq_true.mpr ⟨p,member,Option.isSome_iff_ne_none.mpr reserved⟩)
  refine .seq (Q := fun _ _ => True) (.act (conduct_sound o start) (fun _ _ fair => fair) fun _ _ _ _ => trivial)
    fun _ => ?_
  exact .seq (Q := fun _ _ => True) (.lift fun _ _ _ => trivial) fun _ => (calm_inspect context batchId).triple untaken

theorem calm_requestApproval (context : ToolContext) (batchId : String) (expectedRevision : Int) :
    Quiet (conduct o start) (requestApproval context batchId expectedRevision : M o OwnerScopeProposal) := by
  refine .bind (.check _) fun loaded => ?_
  refine .ite (.lift _) (.bind (calm_ask fun _ _ => trivial) fun _ => .bind (.lift _) fun _ => ?_)
  exact .ite (.lift _) (.pure _)

theorem calm_approval (context : ToolContext) (m : OutreachManifest) (receiptId : String) (selected : List String) :
    Quiet (conduct o start) (approval context m receiptId selected : M o OwnerApprovalReceipt) :=
  .bind (calm_ask fun _ _ => trivial) fun _ => .bind (.lift _) fun _ => .lift _

theorem calm_attachApproval (context : ToolContext) (batchId receiptId : String) (selected : List String) :
    Quiet (conduct o start) (attachApproval context batchId receiptId selected : M o OutreachStatus) := by
  refine .bind (.check _) fun loaded => .ite (.lift _) (.bind (calm_await (calm_approval _ _ _ _)) fun _ => ?_)
  exact Quiet.bind (calm_commit fun _ _ => trivial) fun _ => .bind (.lift _) fun _ => calm_inspect _ _

theorem calm_list (context : ToolContext) : Quiet (conduct o start) (list context : M o (List OutreachStatus)) :=
  .bind (.look _) fun _ => .gather fun batch _ => calm_inspect context batch.id

theorem calm_cancel (context : ToolContext) (batchId : String) :
    Quiet (conduct o start) (cancel context batchId : M o OutreachStatus) := by
  refine .bind (.check _) fun _ => ?_
  exact Quiet.bind (calm_commit fun _ _ => trivial) fun _ => .bind (.lift _) fun _ => calm_inspect _ _

/-! ## Draining -/

theorem calm_authorize (token resource : String) : Quiet (conduct o start) (authorize token resource : M o Unit) :=
  .bind (calm_ask fun _ _ => trivial) fun _ => .lift _

theorem calm_refresh (context : ToolContext) (r : Reservation) : Quiet (conduct o start) (refresh context r : M o Unit) := by
  unfold refresh
  split
  · exact .pure _
  · exact .ite (.lift _) (.bind (calm_resolveForSend _ _) fun _ => .check _)

theorem calm_recordEnd (r : Reservation) (sent : Except Err Unit) : Quiet (conduct o start) (recordEnd r sent : M o Unit) := by
  unfold recordEnd
  split
  · refine .bind (.look _) fun absent => .ite ?_ (.pure _)
    exact Quiet.bind (calm_commit fun _ _ => trivial) fun _ => .bind (.lift _) fun _ => .pure _
  · exact .pure _

theorem send_spec (token : String) (r : Reservation) :
    Triple (conduct o start) i (Prepared o start i r) (send token r) fun _ _ => True := by
  refine .seq (Q := onOk fun reserved c => ∀ b, reserved = .ok b → JustReserved o i r.request r.piece c.trace)
    (.act (conduct_sound o start) (fun _ _ prepared => prepared) fun c _ _ _ => ?_) fun reserved => ?_
  · intro b ran
    refine ⟨r,b,c.trace,?_,rfl,rfl⟩
    rw [← ran]
    rfl
  refine .seq (Q := onOk fun _ c => JustReserved o i r.request r.piece c.trace) (.lift fun _ _ just => ?_) fun b => ?_
  · cases reserved with
    | error e => trivial
    | ok b => exact just b rfl
  refine .seq (Q := fun _ _ => True) (.settle ?_) fun sent => ?_
  · refine .seq (Q := fun _ _ => True) ?_ fun _ => .lift fun _ _ _ => trivial
    exact .call (conduct_sound o start) .top (fun _ _ just => just) (fun _ _ _ => trivial) fun _ _ _ _ => trivial
  refine .seq ((calm_recordEnd r sent).triple untaken) fun _ => ?_
  refine .seq (Q := fun _ _ => True) (.act (conduct_sound o start) (fun _ _ _ => trivial) fun _ _ _ _ => trivial)
    fun _ => ?_
  exact .seq (Q := fun _ _ => True) (.lift fun _ _ _ => trivial) fun _ => .pure fun _ _ _ => trivial

/-- What is prepared, in a store that is in order. -/
def Ready (o : Options) (start : State) (i : Nat) (r : Reservation) (c : Core (outreach o)) : Prop :=
  c.Replays start ∧ (∀ b, c.state.batches.get r.batchId = some b → b.Orderly) ∧ Prepared o start i r c

theorem ready_lasting (r : Reservation) : Lasting (conduct o start) (Ready o start i r) := by
  rintro who c c' move ⟨replays,orderly,prepared⟩
  obtain ⟨x,grown⟩ := trace_grows move
  have carries := move_carries move
  refine ⟨replays.move move,fun b' found => ?_,carries.manifests prepared.filed,prepared.named,
    prepared.recipient,prepared.request,?_,
    fun attached => ?_,fun attached => ?_⟩
  · rcases carries.new found with ⟨b,before,continues⟩ | ⟨_,orderly⟩
    · exact continues.orderly (orderly b before)
    · exact orderly
  · obtain ⟨selected,receipt,member,rest⟩ := prepared.approved
    exact ⟨selected,receipt,by rw [grown]; exact mem_cons_of_mem _ member,rest⟩
  · obtain ⟨later,before,b,p,split,rest⟩ := prepared.textVerified attached
    exact ⟨x :: later,before,b,p,by rw [grown,split]; rfl,rest⟩
  · obtain ⟨b,found,spent⟩ := prepared.textSpent attached
    obtain ⟨b',found',continues⟩ := carries.batches found
    exact ⟨b',found',continues.spent (orderly b found) _ _ spent⟩

theorem sendNext_spec {token : String} {context : ToolContext}
 (member : p.id ∈ batch.selectedRecipientIds) :
    Triple (conduct o start) i
      (fun c => Chosen o start batch m p c ∧ Shown o i m context receiptId batch.selectedRecipientIds c)
      (sendNext token context batch m receiptId p) fun _ _ => True := by
  have chosen : Lasting (conduct o start) (Chosen o start batch m p) := chosen_lasting batch m p
  have lasting := chosen.and (shown_lasting (i := i) m context receiptId batch.selectedRecipientIds)
  refine .seq ((calm_authorize token context.taskId).keeps untaken lasting) fun _ => ?_
  refine .seq (Q := onOk fun r c => Ready o start i r c) (.lift fun c inv held => ?_) fun r => ?_
  · cases made : reservation o batch m receiptId context p with
    | error e => trivial
    | ok r => exact ⟨inv.replays,fun b found => inv.orderly found,reservation_prepared made member held.1 held.2 inv⟩
  refine .seq (.settled ((calm_refresh context r).triple untaken) (ready_lasting r) fun _ held => held) fun fresh => ?_
  cases fresh with
  | error e =>
    refine .seq (Q := fun _ _ => True) (.act (conduct_sound o start) (fun _ _ _ => trivial) fun _ _ _ _ => trivial)
      fun _ => ?_
    exact .seq (Q := fun _ _ => True) (.lift fun _ _ _ => trivial) fun _ => .pure fun _ _ _ => trivial
  | ok _ => exact (send_spec token r).pre fun _ _ held => held.2.2

/-- The wait for the owner's receipt. -/
theorem approval_spec {context : ToolContext} {m : OutreachManifest} {selected : List String}
 (lasting : Lasting (conduct o start) A) :
    Triple (conduct o start) i A (Async.settle (Async.await (approval context m receiptId selected)))
      (onOk fun r c => ∀ receipt, r = .ok receipt → A c ∧ Shown o i m context receiptId selected c) := by
  have asked : Triple (conduct o start) i A (approval context m receiptId selected)
      (onOk fun _ c => A c ∧ Shown o i m context receiptId selected c) := by
    let q := m.query context receiptId selected
    let Answered (receipt : OwnerApprovalReceipt) (c : Core (outreach o)) : Prop :=
      .reply i (.getOutreachApproval q) (.ok receipt) ∈ c.trace
    refine .bind (Q := onOk fun answer c => A c ∧ ∀ receipt, answer = .ok receipt → Answered receipt c)
      (.call (conduct_sound o start) (lasting.stable) (fun _ _ _ => trivial) (fun c _ held => ?_) fun c answer _ held => ?_)
      (fun answer => ?_) fun _ _ _ _ => trivial
    · exact lasting (.call ‹_› trivial) held
    · refine ⟨lasting (.reply _ _ ‹_›) held,?_⟩
      rintro receipt rfl
      exact mem_cons_self
    refine .bind (Q := onOk fun receipt c => A c ∧ Answered receipt c) (.lift fun c _ held => ?_) (fun receipt => ?_)
      fun _ _ _ _ => trivial
    · cases answer with
      | error e => trivial
      | ok receipt => exact ⟨held.1,held.2 receipt rfl⟩
    apply Triple.lift
    rintro c _ ⟨held,answered⟩
    cases given : m.approved o q receipt with
    | error e => trivial
    | ok same =>
      obtain ⟨rfl,_⟩ := approved_ok given
      exact ⟨held,same,answered,given⟩
  refine .settle ((Triple.await (conduct_sound o start) asked fun r => ?_).post fun r c _ held => ?_)
  · cases r with
    | error e => exact .top
    | ok receipt => exact (lasting.and (shown_lasting m context receiptId selected)).stable
  · rintro receipt rfl
    exact held

/-! ### A drain -/

theorem chosen_of_load {c : Core (outreach o)} (inv : Kept o start c) {context : ToolContext}
 (read : c.state.load context batchId = .ok (batch,m))
    (next : OutreachBatch.next batch = some p) : Chosen o start batch m p c := by
  obtain ⟨found,filed⟩ := load_ok read
  have named := inv.named found
  have revision : batch.manifestRevision = m.revision := (Prod.mk.inj (inv.filed filed)).2
  have orderly := inv.orderly found
  have member : p ∈ batch.recipients := mem_of_find?_eq_some next
  have there : batch.recipients.find? (·.id = p.id) = some p := by
    have some_ : (batch.recipients.find? (·.id = p.id)).isSome := List.find?_isSome.mpr ⟨p,member,by simp⟩
    obtain ⟨p',found'⟩ := Option.isSome_iff_exists.mp some_
    have same : p'.id = p.id := by simpa using List.find?_some found'
    have apart : p' = p := inj_on_of_nodup_map orderly.apart (mem_of_find?_eq_some found') member same
    rw [found',apart]
  have stored : c.state.batches.get batch.id = some batch := by rw [named]; exact found
  refine ⟨revision ▸ filed,fun text => ?_,fun text => ?_⟩
  · have now : c.state = stateAt start c.trace := inv.replays
    exact ⟨[],c.trace,batch,p,rfl,now ▸ stored,there,text⟩
  · have shown : p.textual = .verified := by simp [RecipientProgress.textual,text]
    exact ⟨inv.replays,batch,stored,orderly,p,there,_,rfl,(orderly.each p member).verified shown⟩

theorem calm_dispatchOne (token : String) (context : ToolContext) (batchId : String) :
    Quiet (conduct o start) (dispatchOne token context batchId : M o Bool) := by
  intro i _
  refine .seq (Q := onOk fun loaded (c : Core (outreach o)) => ∀ p, OutreachBatch.next loaded.1 = some p →
    Chosen o start loaded.1 loaded.2 p c) (.check fun c inv _ => ?_) fun loaded => ?_
  · cases read : c.state.load context batchId with
    | error e => trivial
    | ok loaded => exact fun p next => chosen_of_load inv read next
  obtain ⟨batch,m⟩ := loaded
  refine .ite (fun _ => .pure fun _ _ _ => trivial) fun _ => ?_
  split
  · exact .lift fun _ _ _ => trivial
  rename_i receiptId _
  split
  · exact .pure fun _ _ _ => trivial
  rename_i p next
  have member : p.id ∈ batch.selectedRecipientIds := by
    have chosen := List.find?_some next
    simpa using (Bool.and_eq_true_iff.mp chosen).2
  have chosen : Lasting (conduct o start) (Chosen o start batch m p) := chosen_lasting batch m p
  have asked : Triple (conduct o start) i (Chosen o start batch m p)
      (Async.settle (Async.await (approval context m receiptId batch.selectedRecipientIds)))
      (onOk fun r c => ∀ receipt, r = .ok receipt →
        Chosen o start batch m p c ∧ Shown o i m context receiptId batch.selectedRecipientIds c) :=
    approval_spec chosen
  refine .seq (asked.pre fun c _ chosen => chosen p next) fun approved => ?_
  cases approved with
  | error e =>
    refine .seq (Q := fun _ _ => True) (.act (conduct_sound o start) (fun _ _ _ => trivial) fun _ _ _ _ => trivial)
      fun _ => ?_
    exact .seq (Q := fun _ _ => True) (.lift fun _ _ _ => trivial) fun _ => .pure fun _ _ _ => trivial
  | ok receipt =>
    refine .seq ((sendNext_spec member).pre fun c _ held => held receipt rfl) fun _ => ?_
    exact .pure fun _ _ _ => trivial

theorem calm_dispatchUpTo (token : String) (context : ToolContext) (batchId : String) (limit : Nat) :
    Quiet (conduct o start) (dispatchUpTo token context batchId limit : M o Unit) := by
  induction limit with
  | zero => exact .pure _
  | succ limit ih => exact .bind (calm_dispatchOne token context batchId) fun more => .ite ih (.pure _)

theorem calm_drain (service : Nat) (token batchId : String) (limit : Int) :
    Quiet (conduct o start) (drain service token batchId limit : M o OutreachStatus) := by
  refine .ite (.lift _) (.bind (.check _) fun context => .bind (calm_authorize _ _) fun _ => .bind (.check _) fun _ => ?_)
  refine .bind (.look _) fun draining => .ite (calm_inspect _ _) ?_
  refine Quiet.bind (calm_commit fun _ _ => trivial) fun _ => ?_
  refine .bind (.settle (.bind (calm_dispatchUpTo _ _ _ _) fun _ => calm_inspect _ _)) fun _ => ?_
  exact Quiet.bind (calm_commit fun _ _ => trivial) fun _ => .lift _

theorem calm_discard (h : Quiet (conduct o start) m) : Quiet (conduct o start) (discard m) :=
  .bind h fun _ => .pure _

theorem calm_operation (op : Op) : Quiet (conduct o start) (operation o op) := by
  cases op with
  | propose context input => exact calm_discard (calm_propose context input)
  | revise context batchId revision input => exact calm_discard (calm_revise context batchId revision input)
  | requestApproval context batchId revision => exact calm_discard (calm_requestApproval context batchId revision)
  | attachApproval context batchId receiptId selected =>
    exact calm_discard (calm_attachApproval context batchId receiptId selected)
  | inspect context batchId => exact calm_discard (calm_inspect context batchId)
  | list context => exact calm_discard (calm_list context)
  | cancel context batchId => exact calm_discard (calm_cancel context batchId)
  | drain service token batchId limit => exact calm_discard (calm_drain service token batchId limit)

end walks

theorem body_safe (op : Op) (i : Nat) (c : Core (outreach o)) (free : ¬(conduct o start).taken i)
    (inv : (conduct o start).inv c) : Safe (conduct o start) i (body o op) c :=
  (calm_operation op i free).safe inv trivial

theorem boot_kept (around : Surroundings) (now : Time) :
    Kept o (boot around now) (⟨boot around now,[]⟩ : Core (outreach o)) := by
  have none : ∀ {p : Event (outreach o) → Prop}, ¬(⟨boot around now,[]⟩ : Core (outreach o)).Happened p :=
    Core.not_happened_initial _
  exact ⟨rfl,fun no => (by cases no),fun no => (by cases no),fun no => (by cases no),trivial,
    fun _ happened => (none happened).elim,fun _ => by simp [Core.AtMostOnce],fun _ happened => (none happened).elim⟩

theorem boot_governed {now : Time}
    (run : World.Leads (body o) (.initial (boot around now)) w) : World.Governed (conduct o (boot around now)) w :=
  (World.initial_governed (boot_kept around now) fun _ => id).leads (conduct_sound o _) body_safe run

end Neurobro.Outreach
