import Neurobro.Data.Rows
import Neurobro.Outreach.Service

/-! What a transaction does to a batch. A piece that was reserved stays reserved, and it is
never pending again. -/
namespace Neurobro.Outreach

open Agent (Err Time)
open List
open Jobs (ToolContext)

variable {o : Options} {s s' : State}

/-! ## One recipient -/

/-- The state that decides about the text of a recipient. -/
abbrev RecipientProgress.textual (p : Progress) : RecipientState := p.textState.getD p.state

abbrev RecipientProgress.pieces (p : Progress) : List (OperationProgress Json) := p.attachments.getD []

/-- What holds of every stored recipient: a reserved piece is not pending, and the text comes
first. -/
structure RecipientProgress.Orderly (p : Progress) : Prop where
  text : p.effectId.isSome → p.textual ≠ .pending
  verified : p.textual = .verified → p.effectId.isSome
  pieces : ∀ a ∈ p.pieces, a.effectId.isSome → a.state ≠ .pending ∧ p.effectId.isSome
  plain : p.attachments = none → p.textState ≠ some .pending

/-- A later record of a recipient. -/
structure RecipientProgress.Goes (p q : Progress) : Prop where
  id : q.id = p.id
  text : p.effectId.isSome → q.effectId.isSome
  pieces : List.Forall₂ (fun a b => a.effectId.isSome → b.effectId.isSome) p.pieces q.pieces
  orderly : p.Orderly → q.Orderly

theorem RecipientProgress.Goes.refl (p : Progress) : p.Goes p :=
  ⟨rfl,fun h => h,forall₂_self (fun _ h => h) _,fun h => h⟩

/-- What projecting one piece can do to it. -/
structure OperationProgress.Projects (a b : OperationProgress Json) : Prop where
  id : b.id = a.id
  effectId : b.effectId = a.effectId
  idle : a.effectId = none → b = a
  active : a.state ≠ .pending → b.state ≠ .pending

theorem OperationProgress.Projects.refl (a : OperationProgress Json) : a.Projects a := ⟨rfl,rfl,fun _ => rfl,fun h => h⟩

theorem outcomeProgress_projects (resource : String) (e : Effect) (p : OperationProgress Json) :
    (outcomeProgress resource e p).id = p.id ∧ (outcomeProgress resource e p).effectId = p.effectId ∧
      (outcomeProgress resource e p).state ≠ .pending := by
  unfold outcomeProgress verifiedProgress
  split
  · split <;> simp
  all_goals simp

theorem projectOperation_projects {now : Time}

    (h : projectOperation o around now m recipientId attachment a = .ok b) : a.Projects b := by
  unfold projectOperation at h
  split at h
  · rename_i effectId context reserved _
    have busy : a.effectId ≠ none := by simp [reserved]
    split at h
    · split at h <;> cases Except.ok.inj h <;> exact ⟨rfl,rfl,fun none => absurd none busy,fun _ => by simp⟩
    · rename_i e _
      split at h
      · contradiction
      · rename_i recipient _
        obtain ⟨request,_,h⟩ := bind_ok h
        obtain ⟨same,_,h⟩ := bind_ok h
        split at h
        · cases Except.ok.inj h
          unfold projectEffect
          obtain ⟨id,effect,state⟩ := outcomeProgress_projects recipient.route.peerId e
            { a with receipt := e.receipt, reason := e.reason }
          dsimp only
          split <;> exact ⟨id,effect,fun none => absurd none busy,fun _ => state⟩
        · cases Except.ok.inj h
          exact ⟨rfl,rfl,fun none => absurd none busy,fun _ => by simp⟩
  · cases Except.ok.inj h
    exact .refl a

theorem projectAttachments_projects {now : Time}

    (h : projectAttachments o around now m recipientId index l = .ok l') :
    List.Forall₂ OperationProgress.Projects l l' := by
  induction l generalizing index l' with
  | nil =>
    cases Except.ok.inj h
    exact .nil
  | cons a rest ih =>
    obtain ⟨b,first,h⟩ := bind_ok h
    obtain ⟨others,next,h⟩ := bind_ok h
    cases Except.ok.inj h
    exact .cons (projectOperation_projects first) (ih next)

theorem project_goes {now : Time} (h : project o around now m p = .ok q) : p.Goes q:= by
  unfold project at h
  split at h
  · rename_i plain
    obtain ⟨b,projected,h⟩ := bind_ok h
    cases Except.ok.inj h
    have projects := projectOperation_projects projected
    refine ⟨projects.id,fun h => by rw [projects.effectId]; exact h,forall₂_self (fun _ h => h) _,fun orderly => ?_⟩
    have idle : p.effectId = none → b = p.toOperationProgress := projects.idle
    constructor
    · intro reserved
      have before := orderly.text (by rw [← projects.effectId]; exact reserved)
      cases shown : p.textState with
      | none =>
        have active : p.state ≠ .pending := by simpa [RecipientProgress.textual,shown] using before
        simpa [RecipientProgress.textual,shown] using projects.active active
      | some state => simpa [RecipientProgress.textual,shown] using before
    · intro verified
      cases none : p.effectId with
      | none =>
        rw [idle none] at verified
        have reserved := orderly.verified verified
        simp [none] at reserved
      | some effectId => simp [projects.effectId,none]
    · intro a member reserved
      have kept := orderly.pieces a member reserved
      exact ⟨kept.1,by rw [projects.effectId]; exact kept.2⟩
    · exact orderly.plain
  · rename_i attachments attached
    obtain ⟨text,projected,h⟩ := bind_ok h
    obtain ⟨pieces,others,h⟩ := bind_ok h
    cases Except.ok.inj h
    have projects := projectOperation_projects projected
    have rows := projectAttachments_projects others
    have same : p.pieces = attachments := by simp [RecipientProgress.pieces,attached]
    refine ⟨projects.id,fun h => by rw [projects.effectId]; exact h,?_,fun orderly => ?_⟩
    · rw [same]
      exact rows.imp fun a b projects reserved => by rw [projects.effectId]; exact reserved
    constructor
    · intro reserved
      exact projects.active (orderly.text (by rw [← projects.effectId]; exact reserved))
    · intro verified
      cases none : p.effectId with
      | none =>
        have unchanged := projects.idle none
        have shown : p.textual = .verified := by
          have kept : text.state = .verified := verified
          rw [unchanged] at kept
          exact kept
        have reserved := orderly.verified shown
        simp [none] at reserved
      | some effectId => simp [projects.effectId,none]
    · intro b member reserved
      obtain ⟨a,there,projected⟩ := forall₂_mem rows member
      have kept := orderly.pieces a (by rw [same]; exact there) (by rw [← projected.effectId]; exact reserved)
      exact ⟨projected.active kept.1,by rw [projects.effectId]; exact kept.2⟩
    · intro no
      contradiction

/-- The pieces of a recipient whose attachments are rewritten one by one. -/
theorem mapped_pieces {p q : Progress}
    (mapped : q.attachments = p.attachments.map (List.map f)) : q.pieces = p.pieces.map f := by
  unfold RecipientProgress.pieces
  rw [mapped]
  cases p.attachments <;> simp

theorem mapped_plain {p q : Progress}
    (mapped : q.attachments = p.attachments.map (List.map f)) (plain : q.attachments = none) : p.attachments = none := by
  rw [mapped] at plain
  simpa using plain

theorem selectAttachment_effect (state : RecipientState) (a : OperationProgress Json) :
    (State.selectAttachment state a).effectId = a.effectId := by
  unfold State.selectAttachment
  split <;> rfl

theorem cancelAttachment_effect (a : OperationProgress Json) : (State.cancelAttachment a).effectId = a.effectId := by
  unfold State.cancelAttachment
  split <;> rfl

theorem select_goes (selected : List String) (now : Time) (p : Progress) : p.Goes (State.selectProgress selected now p) := by
  unfold State.selectProgress
  split
  · exact .refl p
  rename_i free
  have idle : p.effectId = none := by simpa using free
  generalize chosen : (if selected.contains p.id then RecipientState.pending else .unselected) = state
  have unverified : state ≠ .verified := by
    rw [← chosen]
    split <;> simp
  let q : Progress := { p with
    state, updatedAt := now
    textState := if p.attachments.isSome then some state else p.textState
    attachments := p.attachments.map fun list => list.map (State.selectAttachment state) }
  have pieces : q.pieces = p.pieces.map (State.selectAttachment state) := mapped_pieces rfl
  refine (⟨rfl,fun h => h,?_,fun orderly => ⟨?_,fun verified => ?_,fun a member reserved => ?_,fun plain => ?_⟩⟩ : p.Goes q)
  · rw [pieces,forall₂_map_right_iff]
    apply forall₂_self
    intro a reserved
    rw [selectAttachment_effect]
    exact reserved
  · intro reserved
    simp [q,idle] at reserved
  · apply orderly.verified
    cases attached : p.attachments with
    | none =>
      cases text : p.textState with
      | none => simp [q,RecipientProgress.textual,attached,text,unverified] at verified
      | some shown => simpa [q,RecipientProgress.textual,attached,text] using verified
    | some list => simp [q,RecipientProgress.textual,attached,unverified] at verified
  · rw [pieces] at member
    obtain ⟨b,there,rfl⟩ := mem_map.mp member
    rw [selectAttachment_effect] at reserved
    have parent := (orderly.pieces b there reserved).2
    simp [idle] at parent
  · have attached := mapped_plain (p := p) (q := q) (f := State.selectAttachment state) rfl plain
    simpa [q,attached] using orderly.plain attached

theorem cancelText_goes (now : Time) (p : Progress) : p.Goes (State.cancelText now p) ∧
    (State.cancelText now p).attachments = p.attachments := by
  unfold State.cancelText
  split
  · refine ⟨⟨rfl,fun h => h,forall₂_self (fun _ h => h) _,fun orderly => ?_⟩,rfl⟩
    exact ⟨fun _ => by simp [RecipientProgress.textual],fun no => by simp [RecipientProgress.textual] at no,
      orderly.pieces,fun _ => by simp⟩
  · exact ⟨.refl p,rfl⟩

theorem RecipientProgress.Goes.trans {p q r : Progress} (first : p.Goes q) (second : q.Goes r) : p.Goes r := by
  refine ⟨second.id.trans first.id,fun h => second.text (first.text h),?_,fun h => second.orderly (first.orderly h)⟩
  exact forall₂_trans (fun _ _ _ early late h => late (early h)) first.pieces second.pieces

theorem cancel_goes (now : Time) (p : Progress) : p.Goes (State.cancelProgress now p) := by
  obtain ⟨first,same⟩ := cancelText_goes now p
  apply first.trans
  have mapped : (State.cancelProgress now p).attachments =
      (State.cancelText now p).attachments.map (List.map State.cancelAttachment) := by
    rw [same]
    rfl
  refine ⟨rfl,fun h => h,?_,fun orderly => ⟨orderly.text,orderly.verified,fun a member reserved => ?_,fun plain => ?_⟩⟩
  · rw [mapped_pieces mapped,forall₂_map_right_iff]
    apply forall₂_self
    intro a reserved
    rw [cancelAttachment_effect]
    exact reserved
  · rw [mapped_pieces mapped] at member
    obtain ⟨b,there,rfl⟩ := mem_map.mp member
    rw [cancelAttachment_effect] at reserved
    have kept := orderly.pieces b there reserved
    unfold State.cancelAttachment
    split
    · exact ⟨by simp,kept.2⟩
    · exact kept
  · exact orderly.plain (mapped_plain mapped plain)

/-! ### One piece -/

/-- The piece at an index, where the recipient has it. -/
theorem operation_some {p : Progress} (h : p.operation (some index) = .ok a) :
    ∃ list, p.attachments = some list ∧ list[index]? = some a := by
  unfold RecipientProgress.operation at h
  dsimp only at h
  split at h
  · contradiction
  · rename_i found
    cases Except.ok.inj h
    exact Option.bind_eq_some_iff.mp found

theorem operation_mem {p : Progress} (h : p.operation (some index) = .ok a) : a ∈ p.pieces:= by
  obtain ⟨list,attached,there⟩ := operation_some h
  simp only [RecipientProgress.pieces,attached,Option.getD_some]
  exact mem_of_getElem? there

theorem put_pieces {p : Progress} {list : List (OperationProgress Json)}
    (attached : p.attachments = some list) :
    (p.putOperation (some index) a).pieces = list.set index a := by
  simp [RecipientProgress.putOperation,RecipientProgress.pieces,attached]

/-- The piece was reserved. -/
def RecipientProgress.Spent (p : Progress) (attachment : Option Nat) : Prop :=
  ∃ a, p.operation attachment = .ok a ∧ a.effectId.isSome

theorem operation_at {p : Progress} (found : p.pieces[index]? = some a) : p.operation (some index) = .ok a:= by
  cases attached : p.attachments with
  | none => simp [RecipientProgress.pieces,attached] at found
  | some list =>
    have there : list[index]? = some a := by simpa [RecipientProgress.pieces,attached] using found
    simp [RecipientProgress.operation,attached,there]

theorem RecipientProgress.Goes.spent {p q : Progress} (goes : p.Goes q)
    (spent : p.Spent attachment) : q.Spent attachment := by
  obtain ⟨a,found,reserved⟩ := spent
  cases attachment with
  | none =>
    cases Except.ok.inj found
    exact ⟨q.toOperationProgress,rfl,goes.text reserved⟩
  | some index =>
    obtain ⟨list,attached,there⟩ := operation_some found
    have listed : p.pieces[index]? = some a := by simpa [RecipientProgress.pieces,attached] using there
    obtain ⟨b,found',kept⟩ := forall₂_getElem goes.pieces listed
    exact ⟨b,operation_at found',kept reserved⟩

/-- A piece that was reserved is not pending. -/
theorem RecipientProgress.Orderly.spent {p : Progress} (orderly : p.Orderly)
    (spent : p.Spent attachment) : p.pieceState attachment ≠ .ok .pending := by
  obtain ⟨a,found,reserved⟩ := spent
  intro pending
  cases attachment with
  | none =>
    cases Except.ok.inj found
    exact orderly.text reserved (Except.ok.inj pending)
  | some index =>
    obtain ⟨b,found',same⟩ := bind_ok pending
    cases found.symm.trans found'
    exact (orderly.pieces a (operation_mem found) reserved).1 (Except.ok.inj same)

/-- An attachment that is rewritten keeps what was reserved of it. -/
theorem put_goes {p : Progress} (found : p.operation (some index) = .ok a)
    (kept : a.effectId.isSome → b.effectId.isSome)
    (sealed : p.Orderly → b.effectId.isSome → b.state ≠ .pending ∧ p.effectId.isSome) :
    p.Goes (p.putOperation (some index) b) := by
  obtain ⟨list,attached,there⟩ := operation_some found
  refine ⟨rfl,fun h => h,?_,fun orderly => ⟨orderly.text,orderly.verified,fun c member reserved => ?_,fun plain => ?_⟩⟩
  · rw [put_pieces attached]
    simp only [RecipientProgress.pieces,attached,Option.getD_some]
    apply forall₂_set (fun _ h => h)
    intro c here reserved
    cases there.symm.trans here
    exact kept reserved
  · rw [put_pieces attached] at member
    rcases mem_or_eq_of_mem_set member with old | rfl
    · exact orderly.pieces c (by simpa [RecipientProgress.pieces,attached] using old) reserved
    · exact sealed orderly reserved
  · simp [RecipientProgress.putOperation,attached] at plain

theorem put_operation {p : Progress} (found : p.operation (some index) = .ok a) :
    (p.putOperation (some index) b).operation (some index) = .ok b := by
  obtain ⟨list,attached,there⟩ := operation_some found
  apply operation_at
  rw [put_pieces attached]
  have short : index < list.length := (List.getElem?_eq_some_iff.mp there).1
  simp [short]

theorem reserve_id {now : Time} (h : State.reserveProgress now r p = .ok q) : q.id = p.id:= by
  obtain ⟨actual,found,h⟩ := bind_ok h
  obtain ⟨_,_,h⟩ := bind_ok h
  obtain ⟨_,h⟩ := guard_eq_ok.mp h
  cases which : r.attachment with
  | none =>
    rw [which] at found h
    cases Except.ok.inj found
    split at h <;> cases Except.ok.inj h <;> rfl
  | some index =>
    rw [which] at h
    split at h <;> cases Except.ok.inj h <;> rfl

/-- A reservation takes a pending piece; an attachment waits for the text of its recipient. -/
theorem reserve_goes {now : Time} {r : Reservation} (h : State.reserveProgress now r p = .ok q)
    (textFirst : r.attachment.isSome → p.effectId.isSome) :
    p.Goes q ∧ p.pieceState r.attachment = .ok .pending ∧ q.Spent r.attachment := by
  obtain ⟨actual,found,h⟩ := bind_ok h
  obtain ⟨state,shown,h⟩ := bind_ok h
  obtain ⟨pending,h⟩ := guard_eq_ok.mp h
  have waiting : p.pieceState r.attachment = .ok .pending := by
    rw [shown]
    simpa using pending
  cases which : r.attachment with
  | none =>
    simp only [which,Option.isNone_none,Bool.true_and] at h found shown waiting
    cases Except.ok.inj found
    have active : p.textual = .pending := Except.ok.inj waiting
    cases attached : p.attachments with
    | none =>
      simp only [attached,Option.isSome_none,Bool.false_eq_true,if_false] at h
      cases Except.ok.inj h
      refine ⟨⟨rfl,fun _ => rfl,?_,fun orderly => ⟨fun _ => ?_,fun _ => rfl,?_,orderly.plain⟩⟩,waiting,_,rfl,rfl⟩
      · exact forall₂_self (fun _ h => h) _
      · cases text : p.textState with
        | none => simp [RecipientProgress.textual,RecipientProgress.putOperation,text]
        | some state =>
          have shown : state = .pending := by simpa [RecipientProgress.textual,text] using active
          exact absurd (shown ▸ text) (orderly.plain attached)
      · intro a member
        simp [RecipientProgress.pieces,RecipientProgress.putOperation,attached] at member
    | some list =>
      simp only [attached,Option.isSome_some,if_true] at h
      cases Except.ok.inj h
      refine ⟨⟨rfl,fun _ => rfl,?_,fun orderly => ⟨fun _ => ?_,fun _ => rfl,?_,fun plain => ?_⟩⟩,waiting,_,rfl,rfl⟩
      · exact forall₂_self (fun _ h => h) _
      · simp [RecipientProgress.textual,RecipientProgress.putOperation]
      · exact fun a member reserved => ⟨(orderly.pieces a member reserved).1,rfl⟩
      · simp [RecipientProgress.putOperation,attached] at plain
  | some index =>
    simp only [which,Option.isNone_some,Bool.false_and,Bool.false_eq_true,if_false] at h found waiting
    cases Except.ok.inj h
    refine ⟨put_goes found (fun _ => rfl) fun _ _ => ⟨by simp,textFirst (by simp [which])⟩,waiting,_,put_operation found,rfl⟩

theorem prewire_goes {r : Reservation} (h : State.prewireProgress r p = .ok q) : p.Goes q := by
  obtain ⟨actual,found,h⟩ := bind_ok h
  obtain ⟨_,h⟩ := guard_eq_ok.mp h
  cases which : r.attachment with
  | none =>
    rw [which] at h found
    cases Except.ok.inj found
    cases Except.ok.inj h
    exact ⟨rfl,fun h => h,forall₂_self (fun _ h => h) _,
      fun orderly => ⟨orderly.text,orderly.verified,orderly.pieces,orderly.plain⟩⟩
  | some index =>
    rw [which] at h found
    cases Except.ok.inj h
    refine put_goes found ?_ fun orderly reserved => ?_
    · exact fun reserved => reserved
    · exact orderly.pieces actual (operation_mem found) reserved

theorem fail_goes {m : OutreachManifest} (h : s.failProgress o m index p = .ok q) : p.Goes q:= by
  obtain ⟨a,found,h⟩ := bind_ok h
  refine .trans (put_goes found ?_ fun orderly reserved => ?_) (project_goes h)
  · exact fun reserved => reserved
  · exact ⟨by simp,(orderly.pieces a (operation_mem found) reserved).2⟩

theorem settle_goes (h : s.settleProgress o r reservedHash b p = .ok q) : p.Goes q:= by
  obtain ⟨_,_,h⟩ := bind_ok h
  exact project_goes (guard_eq_ok.mp h).2

/-! ## Batches -/

theorem withRecipient_rows
    (h : withRecipient recipientId f l = .ok l')
    (each : ∀ p q, l.find? (·.id = recipientId) = some p → f p = .ok q → p.Goes q) :
    List.Forall₂ RecipientProgress.Goes l l' := by
  induction l generalizing l' with
  | nil => contradiction
  | cons p rest ih =>
    unfold withRecipient at h
    by_cases named : p.id = recipientId
    · rw [if_pos named] at h
      obtain ⟨q,done,h⟩ := bind_ok h
      cases Except.ok.inj h
      exact .cons (each p q (List.find?_cons_of_pos (by simpa using named)) done) (forall₂_self .refl rest)
    · rw [if_neg named] at h
      obtain ⟨others,next,h⟩ := bind_ok h
      cases Except.ok.inj h
      refine .cons (.refl p) (ih next fun p' q found done => each p' q ?_ done)
      rw [List.find?_cons_of_neg (by simpa using named)]
      exact found

theorem withRecipient_found
    (h : withRecipient recipientId f l = .ok l') (named : ∀ p q, f p = .ok q → q.id = p.id) :
    ∃ p q, l.find? (·.id = recipientId) = some p ∧ f p = .ok q ∧ l'.find? (·.id = recipientId) = some q := by
  induction l generalizing l' with
  | nil => contradiction
  | cons p rest ih =>
    unfold withRecipient at h
    by_cases here : p.id = recipientId
    · rw [if_pos here] at h
      obtain ⟨q,done,h⟩ := bind_ok h
      cases Except.ok.inj h
      have also_ : q.id = recipientId := (named p q done).trans here
      exact ⟨p,q,List.find?_cons_of_pos (by simpa using here),done,List.find?_cons_of_pos (by simpa using also_)⟩
    · rw [if_neg here] at h
      obtain ⟨others,next,h⟩ := bind_ok h
      cases Except.ok.inj h
      obtain ⟨p',q,found,done,found'⟩ := ih next
      refine ⟨p',q,?_,done,?_⟩ <;> rw [List.find?_cons_of_neg (by simpa using here)]
      · exact found
      · exact found'

def Batch.ids (b : OutreachBatch) : List String := b.recipients.map fun p => p.id

/-- Recipients are named apart, and each of them is orderly. -/
structure Batch.Orderly (b : OutreachBatch) : Prop where
  apart : b.ids.Nodup
  each : ∀ p ∈ b.recipients, p.Orderly

/-- The piece of a batch was reserved. -/
def Batch.Spent (b : OutreachBatch) (recipientId : String) (attachment : Option Nat) : Prop :=
  ∃ p, b.recipients.find? (·.id = recipientId) = some p ∧ p.Spent attachment

/-- A later record of a batch. -/
structure Batch.Continues (old new : OutreachBatch) : Prop where
  id : new.id = old.id
  cancelled : old.state = .cancelled → new.state = .cancelled
  orderly : old.Orderly → new.Orderly
  spent : old.Orderly → ∀ recipientId attachment, old.Spent recipientId attachment → new.Spent recipientId attachment

theorem Batch.Continues.refl (b : OutreachBatch) : b.Continues b := ⟨rfl,fun h => h,fun h => h,fun _ _ _ h => h⟩

/-- A version, a date or a reason is no part of what is carried on. -/
theorem Batch.Continues.same {a b c : OutreachBatch} (h : a.Continues b) (id : c.id = b.id) (state : c.state = b.state)
    (rows : c.recipients = b.recipients) : a.Continues c := by
  refine ⟨id.trans h.id,fun no => state.trans (h.cancelled no),fun orderly => ?_,fun orderly recipientId attachment spent => ?_⟩
  · obtain ⟨apart,each⟩ := h.orderly orderly
    exact ⟨by unfold Batch.ids; rw [rows]; exact apart,by rw [rows]; exact each⟩
  · obtain ⟨p,found,spent⟩ := h.spent orderly recipientId attachment spent
    exact ⟨p,by rw [rows]; exact found,spent⟩

theorem continues_rows {old new : OutreachBatch} (id : new.id = old.id)
    (cancelled : old.state = .cancelled → new.state = .cancelled)
    (rows : List.Forall₂ RecipientProgress.Goes old.recipients new.recipients) : old.Continues new := by
  refine ⟨id,cancelled,fun orderly => ⟨?_,fun q member => ?_⟩,fun _ recipientId attachment spent => ?_⟩
  · have same : old.ids = new.ids := forall₂_map_eq rows fun _ _ goes => goes.id.symm
    exact same ▸ orderly.apart
  · obtain ⟨p,there,goes⟩ := forall₂_mem rows member
    exact goes.orderly (orderly.each p there)
  · obtain ⟨p,found,spent⟩ := spent
    obtain ⟨q,found',goes⟩ := forall₂_find (fun a b goes => by rw [goes.id]) rows found
    exact ⟨q,found',goes.spent spent⟩

theorem initial_orderly (h : Host) (now : Time) (r : OutreachRecipient) : (initialProgress h now r).Orderly := by
  refine ⟨fun no => ?_,fun no => ?_,fun a member reserved => ?_,fun plain no => ?_⟩
  · cases no
  · unfold RecipientProgress.textual initialProgress at no
    dsimp only at no
    split at no <;> contradiction
  · cases attached : r.attachments.filter (!·.isEmpty) with
    | none => simp [RecipientProgress.pieces,initialProgress,attached] at member
    | some list =>
      simp only [RecipientProgress.pieces,initialProgress,attached,Option.map_some,Option.getD_some,mem_map] at member
      obtain ⟨index,_,rfl⟩ := member
      cases reserved
  · unfold initialProgress at no
    dsimp only at no
    split at no <;> contradiction

/-- A batch nothing of which was reserved may be replaced. -/
theorem revised_continues {now : Time} {b : OutreachBatch}
    (apart : (m.recipients.map fun r => r.id).Nodup) (untouched : ∀ p ∈ b.recipients, p.effectId = none) (running : b.state ≠ .cancelled) :
    b.Continues (State.OutreachBatch.revised o m now b) := by
  refine ⟨rfl,fun no => absurd no running,fun _ => ⟨?_,fun q member => ?_⟩,fun orderly recipientId attachment spent => ?_⟩
  · unfold Batch.ids
    rw [State.OutreachBatch.revised,map_map]
    exact apart
  · obtain ⟨r,_,rfl⟩ := mem_map.mp member
    exact initial_orderly _ _ _
  · obtain ⟨p,found,a,operation,reserved⟩ := spent
    have member := mem_of_find?_eq_some found
    have idle := untouched p member
    cases attachment with
    | none =>
      cases Except.ok.inj operation
      simp [idle] at reserved
    | some index =>
      have parent := (orderly.each p member).pieces a (operation_mem operation) reserved
      simp [idle] at parent

/-! ## Commits -/

/-- The row that an update writes, if it writes one. -/
theorem update_ok
    (h : s.update o batchId f = .ok (b,s')) : ∃ current changed, s.batches.get batchId = some current ∧
      f current = .ok changed ∧ ((sameBatch o.host current changed = true ∧ s' = s) ∨
        s' = { s with batches := s.batches.put batchId { changed with version := changed.version + 1, updatedAt := s.now } }) := by
  unfold State.update at h
  split at h
  · contradiction
  · rename_i current found
    obtain ⟨changed,done,h⟩ := bind_ok h
    refine ⟨current,changed,found,done,?_⟩
    split at h
    · rename_i same
      cases Except.ok.inj h
      exact .inl ⟨same,rfl⟩
    · cases Except.ok.inj h
      exact .inr rfl

/-- Every batch and every manifest of the state is carried on. -/
structure Carries (s s' : State) : Prop where
  batches : ∀ {id b}, s.batches.get id = some b → ∃ b', s'.batches.get id = some b' ∧ b.Continues b'
  new : ∀ {id b'}, s'.batches.get id = some b' → (∃ b, s.batches.get id = some b ∧ b.Continues b') ∨
    (b'.id = id ∧ b'.Orderly)
  manifests : ∀ {key m}, s.manifests.get key = some m → s'.manifests.get key = some m
  filed : ∀ {key m}, s'.manifests.get key = some m → s.manifests.get key = some m ∨ key = (m.batchId,m.revision)

theorem carries_rows (batches : s'.batches = s.batches) (manifests : s'.manifests = s.manifests) : Carries s s' := by
  constructor <;> intro k v found
  · exact ⟨v,by rw [batches]; exact found,.refl v⟩
  · exact .inl ⟨v,by rw [← batches]; exact found,.refl v⟩
  · rw [manifests]
    exact found
  · exact .inl (by rw [← manifests]; exact found)

theorem carries_put {current saved : OutreachBatch} (found : s.batches.get batchId = some current)
    (continues : current.Continues saved) : Carries s { s with batches := s.batches.put batchId saved } := by
  constructor
  · intro id b there
    by_cases same : id = batchId
    · subst same
      cases found.symm.trans there
      exact ⟨saved,Table.get_put_same _ _ _,continues⟩
    · exact ⟨b,(Table.get_put_other _ _ same).trans there,.refl b⟩
  · intro id b there
    left
    by_cases same : id = batchId
    · subst same
      cases (Table.get_put_same _ _ _).symm.trans there
      exact ⟨current,found,continues⟩
    · exact ⟨b,(Table.get_put_other _ _ same).symm.trans there,.refl b⟩
  · exact fun found => found
  · exact fun found => .inl found

theorem carries_update {batchId : String}
    (continues : ∀ current changed, s.batches.get batchId = some current → f current = .ok changed →
      current.Continues changed) : Carries s (atomically s (s.update o batchId f)).2 := by
  apply atomically_cases (carries_rows rfl rfl)
  intro b s' h
  obtain ⟨current,changed,found,done,⟨_,rfl⟩ | rfl⟩ := update_ok h
  · exact carries_rows rfl rfl
  · exact carries_put found ((continues current changed found done).same rfl rfl rfl)

/-- What a commit owes the state it is made in. -/
def Cmd.Fair : Cmd → State → Prop
  | .propose m,_ => m.revision = 1 ∧ (m.recipients.map fun r => r.id).Nodup
  | .revise batchId version m,s => (m.recipients.map fun r => r.id).Nodup ∧ m.batchId = batchId ∧ ∀ b, s.batches.get batchId = some b → b.version = version →
      b.state ≠ .cancelled ∧ ∀ p ∈ b.recipients, p.effectId = none
  | .reserve r,s => r.attachment.isSome → ∀ b p, s.batches.get r.batchId = some b →
      b.recipients.find? (·.id = r.recipient.id) = some p → p.effectId.isSome
  | _,_ => True

theorem propose_carries (first : m.revision = 1)
    (apart : (m.recipients.map fun r => r.id).Nodup) : Carries s (s.propose o m) := by
  unfold State.propose
  by_cases known : (s.batches.get m.batchId).isSome = true
  · rw [if_pos known]
    exact carries_rows rfl rfl
  rw [if_neg known]
  have absent : s.batches.get m.batchId = none := by simpa using known
  constructor
  · intro id b found
    have other : id ≠ m.batchId := by
      rintro rfl
      rw [absent] at found
      contradiction
    exact ⟨b,(Table.get_put_other _ _ other).trans found,.refl b⟩
  · intro id b found
    by_cases same : id = m.batchId
    · subst same
      cases (Table.get_put_same _ _ _).symm.trans found
      refine .inr ⟨rfl,?_,fun p member => ?_⟩
      · unfold Batch.ids State.newBatch
        rw [map_map]
        exact apart
      · obtain ⟨r,_,rfl⟩ := mem_map.mp member
        exact initial_orderly _ _ _
    · exact .inl ⟨b,(Table.get_put_other _ _ same).symm.trans found,.refl b⟩
  · intro key stored found
    dsimp only
    by_cases taken : (s.manifests.get (m.batchId,1)).isSome = true
    · rw [if_pos taken]
      exact found
    · rw [if_neg taken]
      have other : key ≠ (m.batchId,1) := by
        rintro rfl
        simp [found] at taken
      exact (Table.get_put_other _ _ other).trans found
  · intro key stored found
    dsimp only at found
    split at found
    · exact .inl found
    · by_cases same : key = (m.batchId,1)
      · subst same
        cases (Table.get_put_same _ _ _).symm.trans found
        exact .inr (by rw [first])
      · exact .inl ((Table.get_put_other _ _ same).symm.trans found)

theorem revise_carries {version : Nat}
    (fair : (Cmd.revise batchId version m).Fair s) : Carries s (atomically s (s.revise o batchId version m)).2 := by
  apply atomically_cases (carries_rows rfl rfl)
  intro b s' h
  unfold State.revise at h
  split at h
  · contradiction
  rename_i actual found
  obtain ⟨version,h⟩ := guard_eq_ok.mp h
  obtain ⟨unfiled,h⟩ := guard_eq_ok.mp h
  obtain ⟨running,untouched⟩ := fair.2.2 actual found (by simpa using version)
  have filed : Carries s { s with manifests := s.manifests.put (batchId,m.revision) m } := by
    refine ⟨fun found => ⟨_,found,.refl _⟩,fun found => .inl ⟨_,found,.refl _⟩,fun {key stored} there => ?_,
      fun {key stored} there => ?_⟩
    · have other : key ≠ (batchId,m.revision) := by
        rintro rfl
        simp [there] at unfiled
      exact (Table.get_put_other _ _ other).trans there
    · by_cases same : key = (batchId,m.revision)
      · subst same
        cases (Table.get_put_same _ _ _).symm.trans there
        exact .inr (by rw [fair.2.1])
      · exact .inl ((Table.get_put_other _ _ same).symm.trans there)
  obtain ⟨current,changed,found',done,⟨_,rfl⟩ | rfl⟩ := update_ok h
  · exact filed
  · cases found.symm.trans found'
    cases Except.ok.inj done
    have continues : actual.Continues (State.OutreachBatch.revised o m s.now actual) :=
      revised_continues fair.1 untouched running
    let saved : OutreachBatch :=
      { State.OutreachBatch.revised o m s.now actual with version := actual.version + 1, updatedAt := s.now }
    have same : actual.Continues saved := continues.same rfl rfl rfl
    have put := carries_put (s := { s with manifests := s.manifests.put (batchId,m.revision) m }) found same
    exact ⟨put.batches,put.new,fun there => put.manifests (filed.manifests there),filed.filed⟩

/-- Every commit carries the batches and the manifests on. -/
theorem exec_carries (cmd : Cmd) (fair : cmd.Fair s) : Carries s (exec o cmd s).2 := by
  cases cmd with
  | propose m => exact propose_carries fair.1 fair.2
  | revise batchId version m => exact revise_carries fair
  | enter | leave => exact carries_rows rfl rfl
  | inspect batchId m =>
    apply carries_update
    intro current changed _ done
    obtain ⟨recipients,rows,done⟩ := bind_ok done
    cases Except.ok.inj done
    refine continues_rows rfl (fun no => ?_) (forall₂_mapM rows fun _ _ => project_goes)
    simp [State.settledState,no]
  | attach batchId version manifestHash receiptId selected =>
    apply carries_update
    intro current changed _ done
    obtain ⟨free,done⟩ := guard_eq_ok.mp done
    cases Except.ok.inj done
    refine continues_rows rfl (fun no => ?_) ?_
    · simp [no] at free
    · exact forall₂_map_right_iff.mpr (forall₂_self (select_goes selected s.now) _)
  | cancel batchId =>
    apply carries_update
    intro current changed _ done
    cases Except.ok.inj done
    exact continues_rows rfl (fun _ => rfl) (forall₂_map_right_iff.mpr (forall₂_self (cancel_goes s.now) _))
  | note batchId reason =>
    apply carries_update
    intro current changed _ done
    cases Except.ok.inj done
    exact (Batch.Continues.refl current).same rfl rfl rfl
  | failAttachment batchId recipientId index m =>
    apply carries_update
    intro current changed _ done
    obtain ⟨recipients,rows,done⟩ := bind_ok done
    cases Except.ok.inj done
    exact continues_rows rfl (fun h => h) (withRecipient_rows rows fun _ _ _ => fail_goes)
  | reserve r =>
    apply carries_update
    intro current changed found done
    obtain ⟨free,done⟩ := guard_eq_ok.mp done
    obtain ⟨recipients,rows,done⟩ := bind_ok done
    cases Except.ok.inj done
    refine continues_rows rfl (fun no => ?_) (withRecipient_rows rows fun p q there reserved => ?_)
    · simp [no] at free
    · exact (reserve_goes reserved fun attached => fair attached current p found there).1
  | prewire r =>
    apply carries_update
    intro current changed _ done
    obtain ⟨recipients,rows,done⟩ := bind_ok done
    cases Except.ok.inj done
    exact continues_rows rfl (fun h => h) (withRecipient_rows rows fun _ _ _ => prewire_goes)
  | settle r reservedHash =>
    apply carries_update
    intro current changed _ done
    obtain ⟨recipients,rows,done⟩ := bind_ok done
    cases Except.ok.inj done
    exact continues_rows rfl (fun h => h) (withRecipient_rows rows fun _ _ _ => settle_goes)

/-! ## Reservations -/

theorem same_spent {h : Host} (same : sameBatch h a b = true)
 (spent : b.Spent recipientId attachment) : a.Spent recipientId attachment := by
  obtain ⟨p,found,piece,operation,reserved⟩ := spent
  have texts : a.recipients.map (·.mapReceipt h.text) = b.recipients.map (·.mapReceipt h.text) :=
    congrArg Batch.recipients (of_decide_eq_true same)
  have shown : (b.recipients.map (·.mapReceipt h.text)).find? (·.id = recipientId) = some (p.mapReceipt h.text) := by
    rw [List.find?_map,Option.map_eq_some_iff]
    exact ⟨p,found,rfl⟩
  rw [← texts,List.find?_map] at shown
  obtain ⟨q,there,text⟩ := Option.map_eq_some_iff.mp shown
  refine ⟨q,there,?_⟩
  cases attachment with
  | none =>
    cases Except.ok.inj operation
    have effect : q.effectId = p.effectId := congrArg (fun r => r.toOperationProgress.effectId) text
    exact ⟨q.toOperationProgress,rfl,by rw [effect]; exact reserved⟩
  | some index =>
    obtain ⟨list,attached,listed⟩ := operation_some operation
    have lists := congrArg RecipientProgress.attachments text
    simp only [RecipientProgress.mapReceipt,attached,Option.map_some] at lists
    obtain ⟨list',attached',mapped⟩ := Option.map_eq_some_iff.mp lists
    have row := congrArg (fun l => l[index]?) mapped
    simp only [List.getElem?_map,listed,Option.map_some] at row
    obtain ⟨piece',listed',same⟩ := Option.map_eq_some_iff.mp row
    refine ⟨piece',operation_at (by simpa [RecipientProgress.pieces,attached'] using listed'),?_⟩
    have effect := congrArg OperationProgress.effectId same
    have kept : piece'.effectId = piece.effectId := effect
    rw [kept]
    exact reserved

/-- What held when a piece was reserved, and what holds then. -/
structure Reserves (o : Options) (s : State) (r : Reservation) (s' : State) : Prop where
  batch : ∃ b, s.batches.get r.batchId = some b ∧ b.state ≠ .cancelled ∧
    b.manifestHash = r.manifest.manifestHash ∧ b.approvalReceiptId = some r.receiptId ∧
    (b.Orderly → ¬b.Spent r.recipient.id r.attachment)
  reserved : ∃ b, s'.batches.get r.batchId = some b ∧ b.Spent r.recipient.id r.attachment

theorem reserve_ok {r : Reservation} (fair : (Cmd.reserve r).Fair s)
    (h : (exec o (.reserve r) s).1 = .ok b) : Reserves o s r (exec o (.reserve r) s).2 := by
  have ran : s.reserve o r = .ok (b,(exec o (.reserve r) s).2) := atomically_eq_ok h
  obtain ⟨current,changed,found,done,ends⟩ := update_ok ran
  obtain ⟨free,done⟩ := guard_eq_ok.mp done
  obtain ⟨recipients,rows,done⟩ := bind_ok done
  cases Except.ok.inj done
  simp only [Bool.or_eq_true,decide_eq_true_eq,not_or,ne_eq,Decidable.not_not] at free
  obtain ⟨⟨running,hash⟩,receipt⟩ := free
  have goes : ∀ p q, current.recipients.find? (·.id = r.recipient.id) = some p → State.reserveProgress s.now r p = .ok q →
      p.Goes q ∧ p.pieceState r.attachment = .ok .pending ∧ q.Spent r.attachment :=
    fun p q there reserved => reserve_goes reserved fun attached => fair attached current p found there
  obtain ⟨p,q,there,reserved,here⟩ := withRecipient_found rows fun p q reserved => reserve_id reserved
  obtain ⟨_,pending,spent⟩ := goes p q there reserved
  refine ⟨⟨current,found,running,hash,receipt,fun orderly ⟨p',there',spent'⟩ => ?_⟩,?_⟩
  · cases there.symm.trans there'
    exact (orderly.each p (mem_of_find?_eq_some there)).spent spent' pending
  · rcases ends with ⟨same,after⟩ | after
    · exact ⟨current,by rw [after]; exact found,same_spent same ⟨q,here,spent⟩⟩
    · exact ⟨_,by rw [after]; exact Table.get_put_same _ _ _,⟨q,here,spent⟩⟩

end Neurobro.Outreach
