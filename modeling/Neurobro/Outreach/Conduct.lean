import Neurobro.Coop.Histories
import Neurobro.Coop.Runs
import Neurobro.Outreach.Changes

/-! The rules of outreach. A piece is handed to the broker directly after it was reserved,
and what a reservation goes by is on record when it is made. -/
namespace Neurobro.Outreach

open Coop
open Agent (Err Time MessageRef trim)
open Jobs (ToolContext)

variable {o : Options} {start : State} {i : Nat}

abbrev History (o : Options) := List (Event (outreach o))

/-- The store after a history. -/
abbrev stateAt (start : State) (trace : History o) : State := replay (S := outreach o) start trace

/-! ## Events -/

def reserves (piece : Piece) : Event (outreach o) → Bool
  | .act _ (.reserve r) result => r.piece = piece && result.toOption.isSome
  | _ => false

def executes (piece : Piece) : Event (outreach o) → Bool
  | .call _ (.executeEffect _ _ asked) => asked = piece
  | _ => false

def cancels (batchId : String) : Event (outreach o) → Bool
  | .act _ (.cancel id) result => id = batchId && result.toOption.isSome
  | _ => false

/-! ## What a reservation goes by -/

/-- The owner's receipt was shown to the fiber, and it approves this recipient in the very
revision of the manifest. -/
def Approved (o : Options) (i : Nat) (r : Reservation) (trace : History o) : Prop :=
  ∃ selected receipt, .reply i (.getOutreachApproval (r.manifest.query r.context r.receiptId selected)) (.ok receipt) ∈ trace ∧
    r.manifest.approved o (r.manifest.query r.context r.receiptId selected) receipt = .ok receipt ∧
    r.recipient.id ∈ receipt.selectedRecipientIds

/-- The text of the recipient stood verified in the store. -/
def TextVerified (start : State) (r : Reservation) (trace : History o) : Prop :=
  ∃ later before b p, trace = later ++ before ∧ (stateAt start before).batches.get r.batchId = some b ∧
    b.recipients.find? (·.id = r.recipient.id) = some p ∧ p.textState = some .verified

/-- What is known of a reservation before it is made. -/
structure Prepared (o : Options) (start : State) (i : Nat) (r : Reservation) (c : Core (outreach o)) : Prop where
  filed : c.state.manifests.get (r.batchId,r.manifest.revision) = some r.manifest
  named : r.manifest.batchId = r.batchId
  recipient : r.recipient ∈ r.manifest.recipients
  request : effectRequest o.host r.manifest r.recipient r.attachment = .ok r.request
  approved : Approved o i r c.trace
  textVerified : r.attachment.isSome → TextVerified start r c.trace
  textSpent : r.attachment.isSome → ∃ b, c.state.batches.get r.batchId = some b ∧ b.Spent r.recipient.id none

/-- What held when a piece was reserved. -/
structure Reserved (o : Options) (start : State) (i : Nat) (r : Reservation) (before : History o) : Prop where
  running : ∃ b, (stateAt start before).batches.get r.batchId = some b ∧ b.state ≠ .cancelled ∧
    b.manifestHash = r.manifest.manifestHash ∧ b.approvalReceiptId = some r.receiptId
  uncancelled : ∀ x ∈ before, cancels r.batchId x = false
  filed : (stateAt start before).manifests.get (r.batchId,r.manifest.revision) = some r.manifest
  named : r.manifest.batchId = r.batchId
  recipient : r.recipient ∈ r.manifest.recipients
  request : effectRequest o.host r.manifest r.recipient r.attachment = .ok r.request
  approved : Approved o i r before
  textVerified : r.attachment.isSome → TextVerified start r before

/-- The reservation is the newest event. -/
def JustReserved (o : Options) (i : Nat) (request : EffectRequest) (piece : Piece) (trace : History o) : Prop :=
  ∃ r b before, trace = .act i (.reserve r) (.ok b) :: before ∧ piece = r.piece ∧ request = r.request

/-- The ground of an event in what came before it. -/
def Ground (o : Options) (start : State) : Event (outreach o) → History o → Prop
  | .act i (.reserve r) result,before => result.toOption.isSome → Reserved o start i r before
  | .call i (.executeEffect _ request piece),before => JustReserved o i request piece before
  | _,_ => True

/-! ## The rules -/

/-- The batches and their history agree. -/
structure Kept (o : Options) (start : State) (c : Core (outreach o)) : Prop where
  replays : c.Replays start
  named : ∀ {id b}, c.state.batches.get id = some b → b.id = id
  filed : ∀ {key m}, c.state.manifests.get key = some m → key = (m.batchId,m.revision)
  orderly : ∀ {id b}, c.state.batches.get id = some b → b.Orderly
  justified : Justified (Ground o start) c.trace
  spent : ∀ piece, (c.Happened fun x => reserves piece x = true) →
    ∃ b, c.state.batches.get piece.batchId = some b ∧ b.Spent piece.recipientId piece.attachment
  once : ∀ piece, c.AtMostOnce (reserves piece)
  cancelled : ∀ id, (c.Happened fun x => cancels id x = true) →
    ∃ b, c.state.batches.get id = some b ∧ b.state = .cancelled

def Permits (o : Options) (start : State) (i : Nat) (c : Core (outreach o)) : Cmd → Prop
  | .reserve r => Prepared o start i r c
  | cmd => cmd.Fair c.state

def Admits (o : Options) (i : Nat) (c : Core (outreach o)) : Call → Prop
  | .executeEffect _ request piece => JustReserved o i request piece c.trace
  | _ => True

def conduct (o : Options) (start : State) : Rules (outreach o) where
  inv := Kept o start
  mayAct := fun i cmd c => Permits o start i c cmd
  mayCall := fun i q c => Admits o i c q

theorem Prepared.fair (prepared : Prepared o start i r c) : (Cmd.reserve r).Fair c.state:= by
  intro attached b p stored found
  obtain ⟨b',stored',p',found',a,operation,reserved⟩ := prepared.textSpent attached
  cases stored.symm.trans stored'
  cases found.symm.trans found'
  cases Except.ok.inj operation
  exact reserved

theorem Permits.fair (may : Permits o start i c cmd) : cmd.Fair c.state := by
  cases cmd with
  | reserve r => exact Prepared.fair may
  | _ => exact may

/-! ## One commit -/

section acts

variable {c c' : Core (outreach o)} {x : Event (outreach o)}

/-- A step that carries the batches on keeps the agreement, if its event is grounded, and if
it leaves its mark where it is a reservation or a cancellation. -/
theorem Kept.carry (kept : Kept o start c) (mark : c.Records c' x) (replays : c'.Replays start)
    (carries : Carries c.state c'.state) (ground : Ground o start x c.trace)
    (reserved : ∀ piece, reserves piece x = true → (¬c.Happened fun x => reserves piece x = true) ∧
      ∃ b, c'.state.batches.get piece.batchId = some b ∧ b.Spent piece.recipientId piece.attachment)
    (cancelled : ∀ id, cancels id x = true → ∃ b, c'.state.batches.get id = some b ∧ b.state = .cancelled) :
    Kept o start c' := by
  have grown : c'.trace = x :: c.trace := mark
  refine ⟨replays,fun {id b} found => ?_,fun {key m} found => ?_,fun {id b} found => ?_,?_,fun piece => ?_,fun piece => ?_,
    fun id => ?_⟩
  · rcases carries.new found with ⟨old,before,continues⟩ | ⟨named,_⟩
    · exact continues.id.trans (kept.named before)
    · exact named
  · rcases carries.filed found with before | named
    · exact kept.filed before
    · exact named
  · rcases carries.new found with ⟨old,before,continues⟩ | ⟨_,orderly⟩
    · exact continues.orderly (kept.orderly before)
    · exact orderly
  · rw [grown]
    exact ⟨ground,kept.justified⟩
  · rintro ⟨y,member,happened⟩
    rw [grown] at member
    rcases List.mem_cons.mp member with rfl | before
    · exact (reserved piece happened).2
    · obtain ⟨b,found,spent⟩ := kept.spent piece ⟨y,before,happened⟩
      obtain ⟨b',found',continues⟩ := carries.batches found
      exact ⟨b',found',continues.spent (kept.orderly found) _ _ spent⟩
  · exact (kept.once piece).records mark fun happened => (reserved piece happened).1
  · rintro ⟨y,member,happened⟩
    rw [grown] at member
    rcases List.mem_cons.mp member with rfl | before
    · exact cancelled id happened
    · obtain ⟨b,found,done⟩ := kept.cancelled id ⟨y,before,happened⟩
      obtain ⟨b',found',continues⟩ := carries.batches found
      exact ⟨b',found',continues.cancelled done⟩

theorem reserved_of (kept : Kept o start c) (may : Prepared o start i r c)
    (ran : (exec o (.reserve r) c.state).1 = .ok b) : Reserved o start i r c.trace := by
  have now : c.state = stateAt start c.trace := kept.replays
  obtain ⟨current,found,running,hash,receipt,_⟩ := (reserve_ok may.fair ran).batch
  refine ⟨⟨current,now ▸ found,running,hash,receipt⟩,fun x member => ?_,now ▸ may.filed,may.named,may.recipient,
    may.request,may.approved,may.textVerified⟩
  by_contra cancels
  obtain ⟨b',found',cancelled⟩ := kept.cancelled r.batchId ⟨x,member,by simpa using cancels⟩
  cases found.symm.trans found'
  exact running cancelled

theorem cancel_ok (h : (exec o (.cancel batchId) s).1 = .ok b) :
    ∃ b, (exec o (.cancel batchId) s).2.batches.get batchId = some b ∧ b.state = .cancelled := by
  have ran : s.cancel o batchId = .ok (b,(exec o (.cancel batchId) s).2) := atomically_eq_ok h
  obtain ⟨current,changed,found,done,⟨same,after⟩ | after⟩ := update_ok ran
  · cases Except.ok.inj done
    refine ⟨current,by rw [after]; exact found,?_⟩
    exact congrArg Batch.state (of_decide_eq_true same)
  · cases Except.ok.inj done
    exact ⟨_,by rw [after]; exact Table.get_put_same _ _ _,rfl⟩

theorem Kept.act (kept : Kept o start c) {cmd : Cmd} (may : Permits o start i c cmd) : Kept o start (c.act i cmd) := by
  have move : Move (conduct o start) (some i) c (c.act i cmd) := .act kept may
  apply kept.carry (c.records_act i cmd) (kept.replays.move move) (exec_carries cmd may.fair)
  · cases cmd with
    | reserve r =>
      intro done
      obtain ⟨b,ran⟩ : ∃ b, (exec o (.reserve r) c.state).1 = .ok b := by
        cases result : (exec o (.reserve r) c.state).1 with
        | ok b => exact ⟨b,rfl⟩
        | error e => simp [result,Except.toOption] at done
      exact reserved_of kept may ran
    | _ => trivial
  · intro piece happened
    cases cmd with
    | reserve r =>
      obtain ⟨named,done⟩ := Bool.and_eq_true_iff.mp happened
      obtain ⟨b,ran⟩ : ∃ b, (exec o (.reserve r) c.state).1 = .ok b := by
        cases result : (exec o (.reserve r) c.state).1 with
        | ok b => exact ⟨b,rfl⟩
        | error e => simp [result,Except.toOption] at done
      have same : r.piece = piece := of_decide_eq_true named
      subst same
      have reserves := reserve_ok may.fair ran
      refine ⟨fun before => ?_,reserves.reserved⟩
      obtain ⟨current,found,_,_,_,free⟩ := reserves.batch
      obtain ⟨b',found',spent⟩ := kept.spent r.piece before
      cases found.symm.trans found'
      exact free (kept.orderly found) spent
    | _ => cases happened
  · intro id happened
    cases cmd with
    | cancel batchId =>
      obtain ⟨named,done⟩ := Bool.and_eq_true_iff.mp happened
      obtain ⟨b,ran⟩ : ∃ b, (exec o (.cancel batchId) c.state).1 = .ok b := by
        cases result : (exec o (.cancel batchId) c.state).1 with
        | ok b => exact ⟨b,rfl⟩
        | error e => simp [result,Except.toOption] at done
      have same : batchId = id := of_decide_eq_true named
      exact same ▸ cancel_ok ran
    | _ => cases happened

/-- Events beside the commits. -/
theorem Kept.silent (kept : Kept o start c) (mark : c.Records c' x) (replays : c'.Replays start)
    (batches : c'.state.batches = c.state.batches) (manifests : c'.state.manifests = c.state.manifests)
    (ground : Ground o start x c.trace) (no : (∀ piece, reserves piece x = false) ∧ ∀ id, cancels id x = false) :
    Kept o start c' := by
  apply kept.carry mark replays (carries_rows batches manifests) ground
  · intro piece happened
    rw [no.1] at happened
    contradiction
  · intro id happened
    rw [no.2] at happened
    contradiction

end acts

theorem conduct_sound (o : Options) (start : State) : (conduct o start).Sound where
  move := by
    intro who c c' move
    have replays : c.Replays start → c'.Replays start := fun h => h.move move
    cases move with
    | act inv may => exact inv.act may
    | @call c i q inv may =>
      apply inv.silent (c.records_call i q) (replays inv.replays) rfl rfl _ ⟨fun _ => rfl,fun _ => rfl⟩
      cases q with
      | executeEffect token request piece => exact may
      | _ => trivial
    | @reply c i q r inv => exact inv.silent (c.records_reply i q r) (replays inv.replays) rfl rfl trivial ⟨fun _ => rfl,fun _ => rfl⟩
    | @shock c x inv =>
      cases x <;> exact inv.silent (c.records_shock _) (replays inv.replays) rfl rfl trivial ⟨fun _ => rfl,fun _ => rfl⟩
  crash := fun {c} inv => inv.silent c.records_crash inv.replays.crash rfl rfl trivial ⟨fun _ => rfl,fun _ => rfl⟩

end Neurobro.Outreach
