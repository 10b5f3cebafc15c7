import Neurobro.OwnerControls.Conduct

/-! External sends. What `validateEffect` lets out to another peer goes back to one
approval of the owner, which nothing has withdrawn or replaced since. -/
namespace Neurobro.OwnerControls

open Coop
open Agent (Err Time MessageRef refKey)
open Jobs (ToolContext)

variable {o : Options}

/-- The recipient is this peer, and the piece one of its own: peer, payload, capability
and operation are exactly those of the request. -/
def RecipientApprovalSpec.Names (h : Host) (batch : Batch) (request : OwnerEffectRequest) (payloadHash : String)
    (item : RecipientApprovalSpec) : Prop :=
  item.peerId = request.resource ∧
    ((request.capability = "telegram.send" ∧ item.payloadHash = payloadHash ∧
        request.id = some (batch.operation h item.id)) ∨
      ∃ effects id, item.effects = some effects ∧ request.id = some id ∧
        ⟨id,request.capability,payloadHash⟩ ∈ effects)

/-- An approval behind a request: committed for this task and intention when it was valid,
with a selected recipient for the request, and with its message untouched since. -/
structure Approved (o : Options) (start : State) (c : Core (registry o)) (context : ToolContext)
    (request : OwnerEffectRequest) (payloadHash : String) (a : Confirmation) (later earlier : History o) : Prop where
  committed : c.trace = later ++ a.event :: earlier
  valid : a.Valid o start earlier
  task : a.proposal.context.taskId = context.taskId
  intention : a.proposal.context.intentRevision = context.intentRevision
  names : ∃ item ∈ a.batch.recipients, item.id ∈ a.selected ∧ item.Names o.host a.batch request payloadHash
  untouched : ∀ x ∈ later, ¬touches a.message.ref x
  live : ∃ id r, c.state.receipts.get id = some r ∧
    r = (stateAt start earlier).newReceipt o a.evidence a.proposal a.batch a.selected ∧ c.state.now < r.expiresAt
  active : c.state.sourceActive a.evidence = true

theorem covers_names {request : OwnerEffectRequest} {payloadHash : String} {receipt : OwnerApprovalReceipt}
    (covers : receipt.covers o request payloadHash = true) :
    ∃ item ∈ receipt.batch.recipients, item.Names o.host receipt.batch request payloadHash := by
  obtain ⟨item,member,covered⟩ := List.any_eq_true.mp covers
  refine ⟨item,member,?_⟩
  simp only [RecipientApprovalSpec.covers,Bool.and_eq_true,Bool.or_eq_true,decide_eq_true_eq] at covered
  obtain ⟨peer,⟨⟨send,payload⟩,operation⟩ | listed⟩ := covered
  · exact ⟨peer,.inl ⟨send,payload,operation⟩⟩
  · obtain ⟨effects,stored,listed⟩ := (Option.any_eq_true _ _).mp listed
    obtain ⟨effect,member,same⟩ := List.any_eq_true.mp listed
    simp only [Bool.and_eq_true,decide_eq_true_eq] at same
    obtain ⟨⟨id,capability⟩,payload⟩ := same
    refine ⟨peer,.inr ⟨effects,effect.operationId,stored,id.symm,?_⟩⟩
    rw [← capability,← payload]
    exact member

/-- What an admitted send to another peer has found. -/
theorem validateEffect_external {s : State} {context : ToolContext} {request : OwnerEffectRequest}
    (admits : s.validateEffect o context request = .ok ()) (sends : request.capability ∈ sendCapabilities)
    (control : request.resource ≠ o.controlPeerId)
    (route : ∀ intent, s.effectIntent context.taskId = some intent → request.resource ≠ intent.routePeerId) :
    ∃ intent payloadHash receipt, s.effectIntent context.taskId = some intent ∧ sameIntent context intent = true ∧ State.payloadHash o request.payload = .ok payloadHash ∧
      receipt ∈ s.activeReceipts o intent.id ∧ receipt.covers o request payloadHash = true := by
  unfold State.validateEffect at admits
  split at admits
  · contradiction
  · rename_i intent found
    split at admits
    · rename_i reply
      simp only [controlReply,Bool.and_eq_true,decide_eq_true_eq] at reply
      exact absurd reply.2 control
    · obtain ⟨current,admits⟩ := guard_eq_ok.mp admits
      simp only [Bool.or_eq_true,Bool.not_eq_true',not_or,Bool.not_eq_false] at current
      unfold State.validateSend at admits
      rw [if_neg (by simpa using sends),if_neg (by simp [control,route intent found])] at admits
      obtain ⟨payloadHash,hashed,admits⟩ := bind_ok admits
      split at admits
      · rename_i covered
        obtain ⟨receipt,member,covers⟩ := List.any_eq_true.mp covered
        exact ⟨intent,payloadHash,receipt,found,current.1,hashed,member,covers⟩
      · contradiction

theorem activeReceipts_stored {s : State}
    (member : receipt ∈ s.activeReceipts o taskId) :
    (∃ id, s.receipts.get id = some receipt) ∧ ∃ intent, s.around.taskIntent taskId = some intent ∧
      s.receiptActive intent receipt = true := by
  obtain ⟨listed,active⟩ := List.mem_filter.mp member
  simp only [Bool.and_eq_true] at active
  obtain ⟨intent,known,live⟩ := (Option.any_eq_true _ _).mp active.1
  exact ⟨Table.mem_list.mp listed,intent,known,live⟩

/-- The receipt is of the task and the intention of the request. -/
theorem activeReceipts_intent {s : State} {context : ToolContext}
    (found : s.effectIntent context.taskId = some intent) (same : sameIntent context intent = true)
    (member : receipt ∈ s.activeReceipts o intent.id) :
    receipt.context.taskId = context.taskId ∧ receipt.context.intentRevision = context.intentRevision := by
  obtain ⟨_,other,known,active⟩ := activeReceipts_stored member
  simp only [sameIntent,Bool.and_eq_true,decide_eq_true_eq] at same
  unfold State.effectIntent at found
  rw [← same.1] at known
  rw [known] at found
  cases Option.some.inj found
  simp only [State.receiptActive,sameIntent,Bool.and_eq_true,decide_eq_true_eq] at active
  exact ⟨active.1.1.1.1.trans same.1.symm,active.1.1.1.2.trans same.2.symm⟩

/-- Whenever a send to another peer is admitted, an approval of the owner stands behind it. -/
theorem external_send_approved {around : Surroundings} {now : Time} {w : World (registry o)}
    (run : World.Leads (body o) (.initial (boot around now)) w) {context : ToolContext} {request : OwnerEffectRequest}
    (admits : w.core.state.validateEffect o context request = .ok ()) (sends : request.capability ∈ sendCapabilities)
    (control : request.resource ≠ o.controlPeerId)
    (route : ∀ intent, w.core.state.effectIntent context.taskId = some intent → request.resource ≠ intent.routePeerId) :
    ∃ payloadHash, State.payloadHash o request.payload = .ok payloadHash ∧
      ∃ a later earlier, Approved o (boot around now) w.core context request payloadHash a later earlier := by
  have kept := (boot_governed run).inv
  obtain ⟨intent,payloadHash,receipt,found,same,hashed,member,covers⟩ := validateEffect_external admits sends control route
  obtain ⟨⟨id,stored⟩,other,_,active⟩ := activeReceipts_stored member
  have unrevoked : receipt.revokedAt = none := by
    simp only [State.receiptActive,Bool.and_eq_true] at active
    exact Option.isNone_iff_eq_none.mp active.1.1.2
  obtain ⟨⟨a,later,earlier,committed,valid,rfl,untouched⟩,_⟩ := kept.approved stored unrevoked
  obtain ⟨task,intention⟩ := activeReceipts_intent found same member
  simp only [State.receiptActive,Bool.and_eq_true,decide_eq_true_eq] at active
  refine ⟨payloadHash,hashed,a,later,earlier,committed,valid,task,intention,?_,?_,⟨id,_,stored,rfl,active.1.2⟩,active.2⟩
  · obtain ⟨item,listed,names⟩ := covers_names covers
    obtain ⟨listed,chosen⟩ := List.mem_filter.mp listed
    exact ⟨item,listed,by simpa using chosen,names⟩
  · have ref : a.message.ref = a.evidence.ref := valid.shown.1.symm
    rw [ref]
    exact untouched

/-! ## A batch of one recipient -/

def payloadText : String := "\x7b\"text\":\"hello\"\x7d"

def digits (c : Char) : String := String.ofList (List.replicate 64 c)

/-- The payload has a hash of its own; other texts stand for themselves. -/
def Host.plain : Host where
  sha256 s := if s = payloadText then digits 'e' else s
  parseDate s := (Agent.numeral? s).map Int.ofNat
  uuid n := String.ofList (List.replicate (n + 1) 'p')
  numberText := fun _ => "1"
  fold := id
  canonicalize := id
  toLowerCase := id

def Options.plain : Options where
  host := .plain
  rank := fun s => s.length
  accountId := "account"
  ownerId := "owner"
  controlPeerId := "private"

def privateRef (messageId : String) : MessageRef := ⟨"account","private",messageId,none⟩

def ownerSays (messageId text sentAt : String) (replyTo : Option MessageRef := none) : Observation where
  id := "event-" ++ messageId
  ref := privateRef messageId
  authorId := some "owner"
  outgoing := true
  text := some text
  sentAt
  replyTo

def plainIntent (taskId : String) (source : MessageRef) : TaskIntent :=
  ⟨taskId,"owner","account",source,1,"private",[],"grant-" ++ taskId,false⟩

/-- Every task comes from the message of its own name and is active; message 2 is the agent's. -/
def Surroundings.plain : Surroundings where
  taskIntent taskId := some (plainIntent taskId (privateRef taskId))
  taskActive := fun _ => true
  validateAuthority := fun _ => .ok ()
  baseCapabilities := fun _ => []
  grant name := some ⟨name,String.ofList (name.toList.drop 6),1,none,none⟩
  task := fun _ => none
  grantBaseline := fun _ => none
  ownOutput key := key = refKey (privateRef "2")

def plainContext : ToolContext := ⟨⟨"1",1,"grant-1",1⟩,"run"⟩

def plainBatch : Batch := ⟨"batch",1,digits 'f',[⟨"a","recipient",digits 'e',none⟩]⟩

/-- Telegram answers with these messages and resolves every selector to one peer. -/
def telegram (messages : List Observation) (fiber : Nat) : Choice (registry .plain) Op :=
  .resume fiber fun
    | .getMessage ref => some (.ok (messages.find? fun m => sameRef m.ref ref))
    | .resolveSource _ => some (.ok ⟨"account","source","Source"⟩)
    | .resolveForwardSource _ => some (.ok none)
    | .verifyPeer peer => some (.ok peer)

def card : Observation := { ownerSays "2" "Proposal" "1000" with authorId := some "agent" }
def yes : Observation := ownerSays "3" "yes" "1000" (some (privateRef "2"))

/-- A batch is proposed, its card is registered, and the owner answers the card. -/
def approved : List (Choice (registry .plain) Op) :=
  let answer := telegram [card,yes] 2
  [.invoke (.proposeApproval ⟨plainContext,plainBatch,none,none⟩),.invoke (.registerCard 0 (privateRef "2")),
    .invoke (.prepareOwnerEvent yes),answer,answer,answer]

def hello : OwnerEffectRequest where
  capability := "telegram.send"
  resource := "recipient"
  payload := .obj [("text",.str "hello")]
  id := some "outreach:batch:revision:1:recipient:a"

theorem external_send_approved_hello : ∃ (w : World (registry .plain)) (a : Confirmation) (later earlier : History .plain),
    w.core.state.validateEffect .plain plainContext hello = .ok () ∧
    Approved .plain (boot .plain 1000) w.core plainContext hello (digits 'e') a later earlier := by
  have played : (World.play (body .plain) 200 200 approved (.initial (boot .plain 1000))).any fun w =>
      (w.core.state.validateEffect .plain plainContext hello).isOk &&
        decide ((w.core.state.effectIntent "1").map TaskIntent.routePeerId = some "private") := by decide +kernel
  obtain ⟨w,run,holds⟩ := World.play_any played
  simp only [Bool.and_eq_true,decide_eq_true_eq] at holds
  have admits : w.core.state.validateEffect .plain plainContext hello = .ok () := by
    cases result : w.core.state.validateEffect .plain plainContext hello with
    | ok _ => rfl
    | error e =>
      simp [result,Except.isOk,Except.toBool] at holds
  obtain ⟨hash,hashed,a,later,earlier,behind⟩ := external_send_approved run admits (by decide) (by decide) (by
    intro intent found
    have route : intent.routePeerId = "private" := by
      have known := holds.2
      rw [show w.core.state.effectIntent "1" = some intent from found] at known
      exact Option.some.inj known
    rw [route]
    decide)
  have same : State.payloadHash .plain hello.payload = .ok (digits 'e') := by decide +kernel
  cases Except.ok.inj (hashed.symm.trans same)
  exact ⟨w,a,later,earlier,admits,behind⟩

end Neurobro.OwnerControls
