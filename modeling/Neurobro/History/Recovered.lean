import Neurobro.Coop.Runs
import Neurobro.History.Recovery
import Neurobro.History.Rows
import Neurobro.History.Sizes

/-! The recovery sends once, and its files say what became of it: whatever is interrupted where, what is
read back is what the run found. -/
namespace Neurobro.History.Recovery

open Coop Json World Telegram Report Pilot List

/-! The files are small enough to be read. -/

section Sizes
variable {h : Host} {b : Binding}

/-- What the callers promise of the operation: digests, identifiers and decimal numbers. -/
structure Binding.Bounded (b : Binding) : Prop where
  texts : ∀ text ∈ [b.taskRef,b.intentHash,b.descriptorHash,b.originalRecordsHash,b.idempotencyKey,b.randomId,b.accountId,
    b.chatId,b.contentHash], text.utf8ByteSize ≤ 64
  numbers : ∀ n ∈ [b.partIndex,b.replyToMessageId,b.textBytes], natural n = true

/-- A digest has sixty-four digits. -/
def Host.Digests (h : Host) : Prop := ∀ text, (h.hash text).utf8ByteSize ≤ 64

theorem opened_small {value : Json} (small : size numberText value ≤ 12000) : opened (some value) = .ok value := by
  have bytes : (canonical value).utf8ByteSize ≤ 12000 := by
    unfold size at small
    exact small
  have fits : ¬16384 < sealedSize (canonical value).utf8ByteSize := by
    unfold sealedSize
    omega
  simp only [opened,if_neg fits]

theorem digest_size {text : String} (valid : digest text = true) : text.utf8ByteSize ≤ 64 := by
  have size := hexRef_size valid
  have mark : "".utf8ByteSize = 0 := rfl
  omega

theorem binding_size (bounded : b.Bounded) : size numberText b.json ≤ 5100 := by
  have texts : ∀ text ∈ [b.taskRef,b.intentHash,b.descriptorHash,b.originalRecordsHash,b.idempotencyKey,b.randomId,b.accountId,
      b.chatId,b.contentHash], size numberText (.str text) ≤ 386 := fun text member => str_size_le (bounded.texts text member)
  have numbers : ∀ n ∈ [b.partIndex,b.replyToMessageId,b.textBytes], size numberText (int n) ≤ 386 :=
    fun n member => (size_int (bounded.numbers n member)).trans (by decide)
  have keys : keyRoom ["accountId","chatId","contentHash","descriptorHash","idempotencyKey","intentHash","originalRecordsHash",
      "partIndex","randomId","replyToMessageId","taskRef","textBytes"] ≤ 400 := by decide
  apply (size_obj_le keys _).trans (by decide : 2 + 400 + 12 * 386 ≤ 5100)
  simp only [forall_mem_cons] at texts numbers ⊢
  obtain ⟨taskRef,intentHash,descriptorHash,originalRecordsHash,idempotencyKey,randomId,accountId,chatId,contentHash,_⟩ := texts
  obtain ⟨partIndex,replyToMessageId,textBytes,_⟩ := numbers
  exact ⟨accountId,chatId,contentHash,descriptorHash,idempotencyKey,intentHash,originalRecordsHash,partIndex,randomId,replyToMessageId,
    taskRef,textBytes,by simp⟩

theorem fixed_size {text : String} (short : text.utf8ByteSize ≤ 64) : size numberText (.str text) ≤ 386 := str_size_le short

/-- The intent as a run writes it. -/
def intentOf (b : Binding) (owner : String) (policy : Bool) : Json :=
  intentJson b (.str owner) (if policy then some (.str standaloneIfExactMissing) else none)

theorem intent_size (bounded : b.Bounded) (valid : digest owner = true) (policy : Bool) :
    size numberText (intentOf b owner policy) ≤ 12000 := by
  have binding := binding_size bounded
  have owner_ := fixed_size (digest_size valid)
  have domain_ : size numberText (.str domain) ≤ 386 := fixed_size (by decide)
  have kind : size numberText (.str "intent") ≤ 386 := fixed_size (by decide)
  have policy_ : size numberText (.str standaloneIfExactMissing) ≤ 386 := fixed_size (by decide)
  have keys : keyRoom ["binding","domain","kind","ownerReceiptHash","taskReplyPolicy"] ≤ 200 := by decide
  have fewer : keyRoom ["binding","domain","kind","ownerReceiptHash"] ≤ 200 := by decide
  cases policy with
  | true =>
    refine (size_obj _).trans ?_
    simp only [optional,Option.map_some,if_true,Option.toList_some,cons_append,nil_append,map_cons,map_nil,fieldSizes,id]
    omega
  | false =>
    refine (size_obj _).trans ?_
    simp only [optional,Option.map_none,Bool.false_eq_true,if_false,Option.toList_none,append_nil,map_cons,map_nil,fieldSizes]
    omega

theorem dispatch_size {hash : String} (short : hash.utf8ByteSize ≤ 64) : size numberText (dispatchJson hash) ≤ 12000 := by
  have domain_ : size numberText (.str domain) ≤ 386 := fixed_size (by decide)
  have kind : size numberText (.str "dispatch") ≤ 386 := fixed_size (by decide)
  have hash_ := fixed_size short
  have keys : keyRoom ["domain","intentHash","kind"] ≤ 200 := by decide
  refine (size_obj _).trans ?_
  simp only [map_cons,map_nil,fieldSizes]
  omega

theorem result_size {hash : String} (short : hash.utf8ByteSize ≤ 64) (outcome : Option Receipt)
    (valid : ∀ r, outcome = some r → messageIdValid r.messageId = true) : size numberText (resultOf hash outcome) ≤ 12000 := by
  have domain_ : size numberText (.str domain) ≤ 386 := fixed_size (by decide)
  have kind : size numberText (.str "result") ≤ 386 := fixed_size (by decide)
  have verified : size numberText (.str "verified") ≤ 386 := fixed_size (by decide)
  have unknown : size numberText (.str "unknown") ≤ 386 := fixed_size (by decide)
  have joined : size numberText (.bool true) ≤ 5 := size_bool true
  have null : size numberText .null ≤ 386 := by simp only [size,stringify]; decide
  have hash_ := fixed_size short
  have all : keyRoom ["domain","intentHash","kind","leaseJoined","messageId","state","wireReplyToMessageId"] ≤ 300 := by decide
  have some_ : keyRoom ["domain","intentHash","kind","leaseJoined","messageId","state"] ≤ 300 := by decide
  have few : keyRoom ["domain","intentHash","kind","leaseJoined","state"] ≤ 300 := by decide
  cases outcome with
  | none =>
    refine (size_obj _).trans ?_
    simp only [optional,Option.map_none,Bool.false_eq_true,if_false,Option.toList_none,append_nil,cons_append,nil_append,
      map_cons,map_nil,fieldSizes]
    omega
  | some r =>
    have number := (size_int (natural_of_id (valid r rfl))).trans (by decide : 16 ≤ 386)
    refine (size_obj _).trans ?_
    cases standalone : r.standalone with
    | true =>
      simp only [optional,Option.map_some,if_true,Option.toList_some,cons_append,nil_append,
        map_cons,map_nil,fieldSizes,id]
      omega
    | false =>
      simp only [optional,Option.map_some,Option.map_none,Bool.false_eq_true,if_false,Option.toList_some,Option.toList_none,append_nil,
        cons_append,nil_append,map_cons,map_nil,fieldSizes,id]
      omega

end Sizes

/-! What is read back of what a run wrote. -/

section Readback
variable {h : Host} {b : Binding} {owner : String} {policy : Bool}

theorem intentOf_owner : (intentOf b owner policy).field? "ownerReceiptHash" = some (.str owner) := by
  cases policy <;> simp [intentOf,intentJson,field?,optional]

theorem intentOf_policy : (intentOf b owner policy).field? "taskReplyPolicy" =
    if policy then some (.str standaloneIfExactMissing) else none := by
  cases policy <;> simp [intentOf,intentJson,field?,optional]

theorem readIntent_intentOf (valid : digest owner = true) :
    readIntent h b (intentOf b owner policy) = .ok (h.hash (canonical (intentOf b owner policy)),policy) := by
  simp only [readIntent,intentOf_owner,intentOf_policy,valid]
  cases policy <;> simp [isText,intentOf]

theorem messageId?_int (valid : messageIdValid n = true) : messageId? (some (int n)) = some n := by
  have bounds := messageIdValid_iff.mp valid
  simp only [messageId?,int,Rat.den_intCast,Rat.num_intCast]
  rw [if_pos ⟨trivial,by omega,by omega⟩]

theorem readResult_resultOf (hash : String) (outcome : Option Receipt)
    (valid : ∀ r, outcome = some r → messageIdValid r.messageId = true ∧ (r.standalone = true → policy = true)) :
    readResult hash policy (resultOf hash outcome) = .ok outcome := by
  cases outcome with
  | none => simp [readResult,resultOf,resultJson,field?,optional,isText,strictEq,same]
  | some r =>
    obtain ⟨number,allowed⟩ := valid r rfl
    obtain ⟨n,standalone⟩ := r
    cases standalone with
    | true =>
      have policy_ : policy = true := allowed rfl
      have number_ := messageId?_int number
      simp [readResult,resultOf,resultJson,field?,optional,isText,strictEq,same,number_,policy_]
    | false =>
      have number_ := messageId?_int number
      simp [readResult,resultOf,resultJson,field?,optional,isText,strictEq,same,number_]

/-- What a run has written so far, of an outcome it stands for. -/
inductive Sound (h : Host) (b : Binding) (W : Receipt → Prop) : Files → Prop where
  | empty : Sound h b W {}
  | intended (owner : String) (policy : Bool) : digest owner = true → Sound h b W { intent := some (intentOf b owner policy) }
  | dispatched (owner : String) (policy : Bool) : digest owner = true →
      Sound h b W ⟨some (intentOf b owner policy),some (dispatchJson (h.hash (canonical (intentOf b owner policy)))),none⟩
  | settled (owner : String) (policy : Bool) (outcome : Option Receipt) : digest owner = true →
      (∀ r, outcome = some r → W r ∧ messageIdValid r.messageId = true ∧ (r.standalone = true → policy = true)) →
      Sound h b W ⟨some (intentOf b owner policy),some (dispatchJson (h.hash (canonical (intentOf b owner policy)))),
        some (resultOf (h.hash (canonical (intentOf b owner policy))) outcome)⟩

variable {W W' : Receipt → Prop} {d : Files}

theorem Sound.mono (sound : Sound h b W d) (more : ∀ r, W r → W' r) : Sound h b W' d := by
  cases sound with
  | empty => exact .empty
  | intended owner policy valid => exact .intended owner policy valid
  | dispatched owner policy valid => exact .dispatched owner policy valid
  | settled owner policy outcome valid fits =>
    exact .settled owner policy outcome valid fun r is_ => ⟨more r (fits r is_).1,(fits r is_).2⟩

theorem read_settled (bounded : b.Bounded) (digests : h.Digests) (valid : digest owner = true) (outcome : Option Receipt)
    (fits : ∀ r, outcome = some r → messageIdValid r.messageId = true ∧ (r.standalone = true → policy = true)) :
    readStandingHistoryDeliveryRecovery h b ⟨some (intentOf b owner policy),
      some (dispatchJson (h.hash (canonical (intentOf b owner policy)))),
      some (resultOf (h.hash (canonical (intentOf b owner policy))) outcome)⟩ = .ok outcome := by
  have intent := opened_small (intent_size bounded valid policy)
  have shape : plainObject (intentOf b owner policy) = .ok (intentOf b owner policy) := rfl
  have dispatch := opened_small (dispatch_size (digests (canonical (intentOf b owner policy))))
  have result := opened_small (result_size (digests (canonical (intentOf b owner policy))) outcome fun r is_ => (fits r is_).1)
  have object : ∀ hash, plainObject (resultOf hash outcome) = .ok (resultOf hash outcome) := fun hash => by cases outcome <;> rfl
  have settled : readResult (h.hash (canonical (intentOf b owner policy))) policy
      (resultOf (h.hash (canonical (intentOf b owner policy))) outcome) = .ok outcome := readResult_resultOf _ outcome fits
  simp [readStandingHistoryDeliveryRecovery,intent,shape,readIntent_intentOf valid,dispatch,result,object,settled,bind,Except.bind]

/-- A generation without its result is no error, and one with it gives its outcome. -/
theorem Sound.read (sound : Sound h b W d) (bounded : b.Bounded) (digests : h.Digests) :
    ∃ outcome, readStandingHistoryDeliveryRecovery h b d = .ok outcome ∧ (∀ r, outcome = some r → W r) ∧
      (d.result = none → outcome = none) := by
  cases sound with
  | empty => exact ⟨none,rfl,nofun,fun _ => rfl⟩
  | intended owner policy valid =>
    refine ⟨none,?_,nofun,fun _ => rfl⟩
    have intent := opened_small (intent_size bounded valid policy)
    have shape : plainObject (intentOf b owner policy) = .ok (intentOf b owner policy) := rfl
    simp [readStandingHistoryDeliveryRecovery,intent,shape,readIntent_intentOf valid,bind,Except.bind]
  | dispatched owner policy valid =>
    refine ⟨none,?_,nofun,fun _ => rfl⟩
    have intent := opened_small (intent_size bounded valid policy)
    have shape : plainObject (intentOf b owner policy) = .ok (intentOf b owner policy) := rfl
    have dispatch := opened_small (dispatch_size (digests (canonical (intentOf b owner policy))))
    simp [readStandingHistoryDeliveryRecovery,intent,shape,readIntent_intentOf valid,dispatch,bind,Except.bind]
  | settled owner policy outcome valid fits =>
    exact ⟨outcome,read_settled bounded digests valid outcome fun r is_ => (fits r is_).2,fun r is_ => (fits r is_).1,nofun⟩

end Readback

/-! What runs keep to. -/

section Rules
variable {h : Host} {b : Binding} {c c' : Core recovery} {i j : Nat} {d : Files}

def isSend : Event recovery → Bool
  | .call _ (.sendOnce _) => true
  | _ => false

def sends (c : Core recovery) : Nat := c.trace.countP isSend

/-- This fiber made the directory. -/
def Made (c : Core recovery) (i : Nat) : Prop := Event.act (S := recovery) i .mkdir true ∈ c.trace

/-- The request is the original one. -/
def Original (h : Host) (b : Binding) (q : SendRequest) : Prop :=
  q.randomId = b.randomId ∧ h.hash q.text = b.contentHash ∧ (q.text.utf8ByteSize : Int) = b.textBytes ∧ q.chatId = b.chatId ∧
    q.replyToMessageId = b.replyToMessageId

/-- The transport gave this number for the original message, and the message it then read has the form of the receipt. -/
def Witnessed (h : Host) (b : Binding) (c : Core recovery) (r : Receipt) : Prop :=
  ∃ i q sent received, Original h b q ∧ Event.reply (S := recovery) i (.sendOnce q) (.ok sent) ∈ c.trace ∧
    messageId? (sent.field? "messageId") = some r.messageId ∧
    Event.reply (S := recovery) i (.readExact b.chatId r.messageId) (.ok received) ∈ c.trace ∧
    readbackFits b q.text r.messageId r.standalone received = true

/-- The run that ended so wrote it, and it is what is read. -/
def Finished (h : Host) (b : Binding) (s : State) (result : PilotResult) : Prop :=
  ∃ d outcome, s.directory = some d ∧ (∀ name, (d.get name).isSome = true) ∧
    readStandingHistoryDeliveryRecovery h b d = .ok outcome ∧ result = pilotResult outcome

structure Inv (h : Host) (b : Binding) (c : Core recovery) : Prop where
  unmade : c.state.directory = none → sends c = 0 ∧ ∀ i, ¬Made c i
  maker : ∀ i j, Made c i → Made c j → i = j
  once : sends c ≤ 1
  original : ∀ i q, Event.call (S := recovery) i (.sendOnce q) ∈ c.trace → Original h b q
  sound : ∀ d, c.state.directory = some d → Sound h b (Witnessed h b c) d
  finished : ∀ i r, Event.act (S := recovery) i (.finish r) () ∈ c.trace → Finished h b c.state r

def discipline (h : Host) (b : Binding) : Rules recovery where
  inv := Inv h b
  mayAct i cmd c :=
    match cmd with
    | .mkdir => True
    | .write name value => Made c i ∧ ∀ d, c.state.directory = some d → d.get name = none → Sound h b (Witnessed h b c) (d.set name value)
    | .finish r => Finished h b c.state r
  mayCall i q c :=
    match q with
    | .sendOnce q => Made c i ∧ sends c = 0 ∧ Original h b q
    | _ => True

theorem Witnessed.grows {r : Receipt} (seen : Witnessed h b c r) {e : Event recovery} {state : State} :
    Witnessed h b ⟨state,e :: c.trace⟩ r := by
  obtain ⟨i,q,sent,received,original,reply,number,back,fits⟩ := seen
  exact ⟨i,q,sent,received,original,mem_cons_of_mem _ reply,number,mem_cons_of_mem _ back,fits⟩

/-- A step that leaves the directory. -/
theorem Inv.same (inv : Inv h b c) (send : isSend e = false) (made : ∀ i, e ≠ .act i .mkdir true)
    (finish : ∀ i r, e = .act i (.finish r) () → Finished h b c.state r) : Inv h b ⟨c.state,e :: c.trace⟩ := by
  have made_ : ∀ i, Made (⟨c.state,e :: c.trace⟩ : Core recovery) i ↔ Made c i := by
    intro i
    constructor
    · intro member
      exact (mem_cons.mp member).resolve_left fun is_ => made i is_.symm
    · exact mem_cons_of_mem _
  have sends_ : sends (⟨c.state,e :: c.trace⟩ : Core recovery) = sends c := by simp [sends,countP_cons,send]
  refine ⟨fun none_ => ?_,fun i j first second => ?_,?_,fun i q member => ?_,fun d is_ => ?_,fun i r member => ?_⟩
  · rw [sends_]
    exact ⟨(inv.unmade none_).1,fun i held => (inv.unmade none_).2 i ((made_ i).mp held)⟩
  · exact inv.maker i j ((made_ i).mp first) ((made_ j).mp second)
  · rw [sends_]
    exact inv.once
  · obtain rfl | old := mem_cons.mp member
    · cases send
    · exact inv.original i q old
  · exact (inv.sound d is_).mono fun r seen => seen.grows
  · obtain is_ | old := mem_cons.mp member
    · exact finish i r is_.symm
    · exact inv.finished i r old

theorem discipline_sound : (discipline h b).Sound where
  move := by
    intro who c c' move
    cases move with
    | @act _ i cmd inv may =>
      cases cmd with
      | mkdir =>
        cases made : c.state.directory with
        | none =>
          have next : c.act i Cmd.mkdir = ⟨⟨some {}⟩,.act i .mkdir true :: c.trace⟩ := by
            simp [Core.act,recovery,exec,made]
          rw [next]
          obtain ⟨zero,nobody⟩ := inv.unmade made
          have sends_ : sends (⟨⟨some {}⟩,.act i .mkdir true :: c.trace⟩ : Core recovery) = 0 := by
            simpa [sends,countP_cons,isSend] using zero
          have only : ∀ j, Made (⟨⟨some {}⟩,.act i .mkdir true :: c.trace⟩ : Core recovery) j → j = i := by
            intro j member
            obtain is_ | old := mem_cons.mp member
            · exact (Event.act.inj is_).1
            · exact absurd old (nobody j)
          refine ⟨nofun,fun j k first second => (only j first).trans (only k second).symm,by omega,fun j q member => ?_,fun d is_ => ?_,
            fun j r member => ?_⟩
          · obtain is_ | old := mem_cons.mp member
            · cases is_
            · exact inv.original j q old
          · cases Option.some.inj is_
            exact .empty
          · obtain is_ | old := mem_cons.mp member
            · cases is_
            · obtain ⟨d,_,is_,_⟩ := inv.finished j r old
              rw [made] at is_
              cases is_
        | some d =>
          have next : c.act i Cmd.mkdir = ⟨c.state,.act i .mkdir false :: c.trace⟩ := by
            simp [Core.act,recovery,exec,made]
          rw [next]
          exact inv.same rfl (fun j is_ => by cases is_) fun j r is_ => by cases is_
      | write name value =>
        obtain ⟨mine,grows⟩ := may
        cases made : c.state.directory with
        | none => exact absurd mine ((inv.unmade made).2 i)
        | some d =>
          cases there : d.get name with
          | some old =>
            have next : c.act i (Cmd.write name value) = ⟨c.state,.act i (.write name value) false :: c.trace⟩ := by
              simp [Core.act,recovery,exec,made,there]
            rw [next]
            exact inv.same rfl (fun j is_ => by cases is_) fun j r is_ => by cases is_
          | none =>
            have next : c.act i (Cmd.write name value) =
                ⟨⟨some (d.set name value)⟩,.act i (.write name value) true :: c.trace⟩ := by
              simp [Core.act,recovery,exec,made,there]
            rw [next]
            refine ⟨nofun,fun j k first second => ?_,?_,fun j q member => ?_,fun d' is_ => ?_,fun j r member => ?_⟩
            · have old : ∀ j, Made (⟨⟨some (d.set name value)⟩,.act i (.write name value) true :: c.trace⟩ : Core recovery) j → Made c j := by
                intro j member
                exact (mem_cons.mp member).resolve_left fun is_ => by cases is_
              exact inv.maker j k (old j first) (old k second)
            · simpa [sends,countP_cons,isSend] using inv.once
            · exact inv.original j q ((mem_cons.mp member).resolve_left fun is_ => by cases is_)
            · cases Option.some.inj is_
              exact (grows d made there).mono fun r seen => seen.grows
            · have old := (mem_cons.mp member).resolve_left fun is_ => by cases is_
              obtain ⟨d',_,is_,full,_⟩ := inv.finished j r old
              rw [made] at is_
              cases is_
              have missing := full name
              rw [there] at missing
              cases missing
      | finish r =>
        refine inv.same rfl (fun j is_ => by cases is_) fun j r' is_ => ?_
        cases is_
        exact may
    | @call _ i q inv may =>
      cases q with
      | sendOnce q =>
        obtain ⟨mine,zero,original⟩ := may
        have one : sends (c.call i (.sendOnce q)) = 1 := by
          have counted : sends (c.call i (.sendOnce q)) = sends c + 1 := countP_cons_of_pos rfl
          omega
        have made : ∀ j, Made (c.call i (.sendOnce q)) j → Made c j := fun j member =>
          (mem_cons.mp member).resolve_left fun is_ => by cases is_
        refine ⟨fun none_ => absurd mine ((inv.unmade none_).2 i),fun j k first second => inv.maker j k (made j first) (made k second),
          by omega,fun j q' member => ?_,fun d is_ => (inv.sound d is_).mono fun r seen => seen.grows,fun j r member => ?_⟩
        · obtain is_ | old := mem_cons.mp member
          · cases is_
            exact original
          · exact inv.original j q' old
        · exact inv.finished j r ((mem_cons.mp member).resolve_left fun is_ => by cases is_)
      | host => exact inv.same rfl (fun j is_ => by cases is_) fun j r is_ => by cases is_
      | aborted => exact inv.same rfl (fun j is_ => by cases is_) fun j r is_ => by cases is_
      | readExact chatId messageId => exact inv.same rfl (fun j is_ => by cases is_) fun j r is_ => by cases is_
    | reply q r inv => exact inv.same rfl (fun j is_ => by cases is_) fun j r is_ => by cases is_
    | shock x inv => exact x.elim
  crash inv := inv.same rfl (fun j is_ => by cases is_) fun j r is_ => by cases is_

/-- The directory is this fiber's and holds just these files; where it is fresh nothing was sent. -/
def Holds (i : Nat) (d : Files) (fresh : Bool) (c : Core recovery) : Prop :=
  Made c i ∧ c.state.directory = some d ∧ (fresh = true → sends c = 0)

theorem event_lasting (e : Event recovery) : Lasting (discipline h b) fun c => e ∈ c.trace := by
  intro who c c' move member
  cases move with
  | act inv may => exact mem_cons_of_mem _ member
  | call inv may => exact mem_cons_of_mem _ member
  | reply q r inv => exact mem_cons_of_mem _ member
  | shock x inv => exact mem_cons_of_mem _ member

theorem witnessed_lasting (r : Receipt) : Lasting (discipline h b) fun c => Witnessed h b c r := by
  intro who c c' move seen
  cases move with
  | act inv may => exact seen.grows
  | call inv may => exact seen.grows
  | reply q r inv => exact seen.grows
  | shock x inv => exact seen.grows

theorem Holds.grows {fresh : Bool} (holds : Holds i d fresh c) {e : Event recovery} (send : isSend e = false) :
    Holds i d fresh ⟨c.state,e :: c.trace⟩ := by
  obtain ⟨mine,is_,zero⟩ := holds
  refine ⟨mem_cons_of_mem _ mine,is_,fun fresh => ?_⟩
  have before := zero fresh
  simpa [sends,countP_cons,send] using before

theorem Holds.sent {fresh : Bool} (holds : Holds i d fresh c) : Holds i d false c := ⟨holds.1,holds.2.1,nofun⟩

theorem holds_stable (i : Nat) (d : Files) (fresh : Bool) : Stable (discipline h b) i (Holds i d fresh) := by
  rintro who c c' other move holds
  cases move with
  | @act _ j cmd inv may =>
    have apart : ¬Made c j := fun theirs => other (by rw [inv.maker j i theirs holds.1])
    cases cmd with
    | mkdir =>
      have next : c.act j Cmd.mkdir = ⟨c.state,.act j .mkdir false :: c.trace⟩ := by
        simp [Core.act,recovery,exec,holds.2.1]
      rw [next]
      exact holds.grows rfl
    | write name value => exact absurd may.1 apart
    | finish r => exact holds.grows rfl
  | @call _ j q inv may =>
    cases q with
    | sendOnce q => exact absurd (inv.maker j i may.1 holds.1) fun same => other (by rw [same])
    | host => exact holds.grows rfl
    | aborted => exact holds.grows rfl
    | readExact chatId messageId => exact holds.grows rfl
  | reply q r inv => exact holds.grows rfl
  | shock x inv => exact x.elim

/-! Steps that keep what the fiber holds. -/

variable {fresh : Bool}

theorem ask_keeps (q : Call) (plain : ∀ r, q ≠ .sendOnce r) : Triple (discipline h b) i (Holds i d fresh) (ask q)
    fun r c => Holds i d fresh c ∧ ∀ reply, r = .ok reply → Event.reply (S := recovery) i q reply ∈ c.trace := by
  refine .call discipline_sound (holds_stable i d fresh) (fun c _ _ => ?_) (fun c _ holds => holds.grows ?_) fun c r _ holds =>
    ⟨holds.grows rfl,fun reply is_ => ?_⟩
  · cases q with
    | sendOnce r => exact absurd rfl (plain r)
    | host => trivial
    | aborted => trivial
    | readExact chatId messageId => trivial
  · cases q with
    | sendOnce r => exact absurd rfl (plain r)
    | host => rfl
    | aborted => rfl
    | readExact chatId messageId => rfl
  · cases is_
    exact mem_cons_self

theorem host_keeps : Triple (discipline h b) i (Holds i d fresh) host fun _ => Holds i d fresh := by
  refine .bind ((ask_keeps .host nofun).post fun _ _ _ held => held.1) (fun done => ?_) fun _ _ _ held => held
  exact .lift fun _ _ held => held

theorem live_keeps : Triple (discipline h b) i (Holds i d fresh) live fun _ => Holds i d fresh := by
  refine .bind ((ask_keeps .aborted nofun).post fun _ _ _ held => held.1) (fun aborted => ?_) fun _ _ _ held => held
  exact .ite (fun _ => .lift fun _ _ held => held) fun _ => .pure fun _ _ held => held

theorem read_keeps (name : Name) : Triple (discipline h b) i (Holds i d fresh) (read name) fun _ => Holds i d fresh := by
  refine .bind host_keeps (fun _ => ?_) fun _ _ _ held => held
  refine .bind (Q := fun _ => Holds i d fresh) (.look fun _ _ held => held) (fun file => ?_) fun _ _ _ held => held
  refine .bind (Q := fun _ => Holds i d fresh) (.lift fun _ _ held => held) (fun value => ?_) fun _ _ _ held => held
  exact .bind host_keeps (fun _ => .pure fun _ _ held => held) fun _ _ _ held => held

theorem write_sets (lasting : Lasting (discipline h b) A) {name : Name} {value : Json}
    (missing : d.get name = none) (sound : ∀ c, Inv h b c → Holds i d fresh c → A c → Sound h b (Witnessed h b c) (d.set name value)) :
    Triple (discipline h b) i (fun c => Holds i d fresh c ∧ A c) (write name value)
      (onOk fun _ c => Holds i (d.set name value) fresh c ∧ A c) := by
  refine .bind (host_keeps.keep lasting) (fun _ => ?_) fun _ _ _ _ => trivial
  refine .bind (Q := onOk fun _ c => Holds i (d.set name value) fresh c ∧ A c) (.act discipline_sound (fun c inv held => ?_)
    fun c inv held _ => ?_) (fun made => ?_) fun _ _ _ _ => trivial
  · refine ⟨held.1.1,fun d' is_ _ => ?_⟩
    have same : d' = d := Option.some.inj (is_.symm.trans held.1.2.1)
    rw [same]
    exact sound c inv held.1 held.2
  · have next : c.act i (Cmd.write name value) = ⟨⟨some (d.set name value)⟩,.act i (.write name value) true :: c.trace⟩ := by
      simp [Core.act,recovery,exec,held.1.2.1,missing]
    have may : (discipline h b).mayAct i (.write name value) c := by
      refine ⟨held.1.1,fun d' is_ _ => ?_⟩
      have same : d' = d := Option.some.inj (is_.symm.trans held.1.2.1)
      rw [same]
      exact sound c inv held.1 held.2
    have kept := lasting (.act inv may) held.2
    rw [next] at kept ⊢
    refine ⟨⟨mem_cons_of_mem _ held.1.1,rfl,fun fresh => ?_⟩,kept⟩
    have before := held.1.2.2 fresh
    simpa [sends,countP_cons,isSend] using before
  · refine .ite (fun _ => .lift fun _ _ _ => trivial) fun _ => ?_
    refine .bind (host_keeps.keep lasting) (fun _ => ?_) fun _ _ _ _ => trivial
    refine .bind ((read_keeps name).keep lasting) (fun back => ?_) fun _ _ _ _ => trivial
    exact .ite (fun _ => .lift fun _ _ _ => trivial) fun _ => .pure fun _ _ held => held

/-- What the exchange found. -/
def Found (h : Host) (b : Binding) (policy : Option String) (outcome : Option Receipt) (c : Core recovery) : Prop :=
  ∀ r, outcome = some r → Witnessed h b c r ∧ messageIdValid r.messageId = true ∧
    (r.standalone = true → policy = some standaloneIfExactMissing)

theorem found_lasting (policy : Option String) (outcome : Option Receipt) : Lasting (discipline h b) (Found h b policy outcome) :=
  fun _ _ _ move found r is_ => ⟨witnessed_lasting r move (found r is_).1,(found r is_).2⟩

theorem messageId?_valid {value : Option Json} (is_ : messageId? value = some n) : messageIdValid n = true := by
  unfold messageId? at is_
  split at is_
  · split at is_
    · rename_i bounds
      cases is_
      exact messageIdValid_iff.mpr ⟨by omega,by omega⟩
    · cases is_
  · cases is_

theorem plain_ok {reply : Except String Json} {value : Json} (is_ : reply.bind plainObject = .ok value) : reply = .ok value := by
  cases reply with
  | error e => cases is_
  | ok json =>
    cases json <;> first
    | cases is_
    | skip
    rfl

theorem exchange_finds {text : String} (policy : Option String)
    (original : Original h b ⟨b.chatId,b.replyToMessageId,text,b.randomId⟩) :
    Triple (discipline h b) i (Holds i d true) (exchange b text policy)
      fun r c => Holds i d false c ∧ Found h b policy r.toOption c := by
  have nothing : ∀ c (e : String), Found h b policy (Except.error e : Except String Receipt).toOption c := fun c e => nofun
  refine .bind host_keeps (fun _ => ?_) fun e c _ held => ⟨held.sent,nothing c e⟩
  refine .bind live_keeps (fun _ => ?_) fun e c _ held => ⟨held.sent,nothing c e⟩
  let q : SendRequest := ⟨b.chatId,b.replyToMessageId,text,b.randomId⟩
  refine .bind (Q := fun r c => Holds i d false c ∧ ∀ reply, r = .ok reply → Event.reply (S := recovery) i (.sendOnce q) reply ∈ c.trace)
    (.call discipline_sound (holds_stable i d false) (fun c _ held => ⟨held.1,held.2.2 rfl,original⟩) (fun c _ held => ?_)
      fun c r _ held => ⟨held.grows rfl,fun reply is_ => ?_⟩) (fun reply => ?_) fun e c _ held => ⟨held.1,nothing c e⟩
  · exact ⟨mem_cons_of_mem _ held.1,held.2.1,nofun⟩
  · cases is_
    exact mem_cons_self
  refine .bind (Q := fun r c => Holds i d false c ∧ ∀ sent, r = .ok sent → Event.reply (S := recovery) i (.sendOnce q) (.ok sent) ∈ c.trace)
    (.lift fun c _ held => ⟨held.1,fun sent is_ => ?_⟩) (fun sent => ?_) fun e c _ held => ⟨held.1,nothing c e⟩
  · have same := plain_ok is_
    rw [← same]
    exact held.2 reply rfl
  cases number : messageId? (sent.field? "messageId") with
  | none => exact .lift fun c _ held => ⟨held.1,nothing c _⟩
  | some messageId =>
    have first := event_lasting (h := h) (b := b) (Event.reply (S := recovery) i (.sendOnce q) (.ok sent))
    refine .bind (((ask_keeps (.readExact b.chatId messageId) nofun).keep first).pre fun c _ held => ⟨held.1,held.2 sent rfl⟩) (fun reply => ?_)
      fun e c _ held => ⟨held.1.1,nothing c e⟩
    refine .bind (Q := fun r c => Holds i d false c ∧ ∀ received, r = .ok received →
      Event.reply (S := recovery) i (.sendOnce q) (.ok sent) ∈ c.trace ∧
        Event.reply (S := recovery) i (.readExact b.chatId messageId) (.ok received) ∈ c.trace)
      (.lift fun c _ held => ⟨held.1.1,fun received is_ => ⟨held.2,?_⟩⟩) (fun received => ?_) fun e c _ held => ⟨held.1,nothing c e⟩
    · have same := plain_ok is_
      rw [← same]
      exact held.1.2 reply rfl
    refine .ite (fun fits => .pure fun c _ held => ⟨held.1,fun r is_ => ?_⟩) fun _ => .lift fun c _ held => ⟨held.1,nothing c _⟩
    obtain ⟨sent_,back⟩ := held.2 received rfl
    cases is_
    refine ⟨⟨i,q,sent,received,original,sent_,number,back,fits⟩,messageId?_valid number,fun standalone => ?_⟩
    simp only [missingAnchor,Bool.and_eq_true,decide_eq_true_eq] at standalone
    exact standalone.1.1

theorem host_quiet : Quiet (discipline h b) host :=
  .bind (.call discipline_sound fun _ _ _ => trivial) fun _ => .lift _

theorem live_quiet : Quiet (discipline h b) live :=
  .bind (.call discipline_sound fun _ _ _ => trivial) fun _ => .ite (.lift _) (.pure _)

theorem snapshot_valid {value : Option Authorization} (taken : snapshotAuthorization value b = .ok a) :
    digest a.ownerReceiptHash = true := by
  unfold snapshotAuthorization at taken
  split at taken
  · cases taken
  · split at taken
    · cases taken
    · rename_i fits
      cases taken
      simp only [not_or] at fits
      simpa using fits.2.1

/-- The fiber that makes the directory holds it empty, and nothing was sent. -/
theorem mkdir_holds : Triple (discipline h b) i (fun _ => True) (commit .mkdir)
    (onOk fun made c => made = true → Holds i {} true c) := by
  refine .act discipline_sound (fun _ _ _ => trivial) fun c inv _ _ => ?_
  cases there : c.state.directory with
  | none =>
    have next : c.act i Cmd.mkdir = ⟨⟨some {}⟩,.act i .mkdir true :: c.trace⟩ := by simp [Core.act,recovery,exec,there]
    rw [next]
    have zero := (inv.unmade there).1
    exact fun _ => ⟨mem_cons_self,rfl,fun _ => by simpa [sends,countP_cons,isSend] using zero⟩
  | some d =>
    have refused : (exec .mkdir c.state).1 = false := by simp [exec,there]
    intro made
    have made : (exec .mkdir c.state).1 = true := made
    rw [refused] at made
    cases made

theorem trivially : Lasting (discipline h b) fun _ => True := fun _ _ _ _ _ => trivial

/-- A run under its own directory, with the authorization and the policy it came with. -/
theorem run_safe (bounded : b.Bounded) (digests : h.Digests) (input : Input) :
    Triple (discipline h b) i (fun _ => True) (runStandingHistoryDeliveryRecovery h b input) fun _ _ => True := by
  have free : ¬(discipline h b).taken i := id
  refine .seq (Q := onOk fun a _ => digest a.ownerReceiptHash = true) (.lift fun c _ _ => ?_) fun authorization => ?_
  · cases taken : snapshotAuthorization input.authorization b with
    | error e => trivial
    | ok a => exact snapshot_valid taken
  refine .ite (fun _ => .lift fun _ _ _ => trivial) fun fits => ?_
  simp only [not_or,ne_eq,not_not,not_and] at fits
  obtain ⟨hash,bytes,policies⟩ := fits
  let owner := authorization.ownerReceiptHash
  let policy := input.taskReplyPolicy.isSome
  have intent_ : intentJson b (.str owner) (input.taskReplyPolicy.map .str) = intentOf b owner policy := by
    cases is_ : input.taskReplyPolicy with
    | none => simp [intentOf,policy,is_]
    | some text =>
      have same : text = standaloneIfExactMissing := by
        have same := policies (by rw [is_]; rfl)
        rw [is_] at same
        exact Option.some.inj same
      simp [intentOf,policy,is_,same]
  have original : Original h b ⟨b.chatId,b.replyToMessageId,input.text,b.randomId⟩ := ⟨rfl,hash,bytes,rfl,rfl⟩
  refine .named fun c₀ _ valid => ?_
  have valid : digest owner = true := valid
  refine .seq (Q := fun _ _ => True) (live_quiet.triple free) fun _ => .seq (Q := fun _ _ => True) (host_quiet.triple free) fun _ => ?_
  refine .seq mkdir_holds fun made => ?_
  refine .ite (fun _ => .lift fun _ _ _ => trivial) fun is_ => ?_
  have made_ : made = true := by simpa using is_
  refine Triple.pre (P := Holds i {} true) ?_ fun c _ holds => holds made_
  refine .seq host_keeps fun _ => ?_
  rw [intent_]
  refine .seq ((write_sets trivially rfl fun c _ _ _ => .intended owner policy valid).pre fun c _ held => ⟨held,trivial⟩) fun _ => ?_
  refine .seq (live_keeps.pre fun c _ held => held.1) fun _ => ?_
  refine .seq ((write_sets trivially rfl fun c _ _ _ => .dispatched owner policy valid).pre fun c _ held => ⟨held,trivial⟩) fun _ => ?_
  refine .seq (Q := onOk fun (r : Except String Receipt) c => Holds i ⟨some (intentOf b owner policy),
      some (dispatchJson (h.hash (canonical (intentOf b owner policy)))),none⟩ false c ∧ Found h b input.taskReplyPolicy r.toOption c)
    (.settle ((exchange_finds input.taskReplyPolicy original).pre fun c _ held => held.1)) fun outcome => ?_
  have found := found_lasting (h := h) (b := b) input.taskReplyPolicy outcome.toOption
  refine .seq (host_keeps.keep found) fun _ => .seq (host_keeps.keep found) fun _ => ?_
  have allowed : ∀ r, outcome.toOption = some r → ∀ c, Found h b input.taskReplyPolicy outcome.toOption c →
      Witnessed h b c r ∧ messageIdValid r.messageId = true ∧ (r.standalone = true → policy = true) := by
    intro r is_ c found
    obtain ⟨seen,number,standalone⟩ := found r is_
    refine ⟨seen,number,fun alone => ?_⟩
    simp [policy,standalone alone]
  refine .seq (write_sets found rfl fun c _ _ found => .settled owner policy outcome.toOption valid fun r is_ => allowed r is_ c found) fun _ => ?_
  refine .seq (Q := fun _ _ => True) (.act discipline_sound (fun c inv held => ?_) fun _ _ _ _ => trivial) fun _ => .pure fun _ _ _ => trivial
  refine ⟨_,outcome.toOption,held.1.2.1,fun name => ?_,read_settled bounded digests valid outcome.toOption fun r is_ =>
    (allowed r is_ c held.2).2,rfl⟩
  cases name <;> rfl

theorem body_safe (bounded : b.Bounded) (digests : h.Digests) (op : Op) (i : Nat) (c : Core recovery) (inv : (discipline h b).inv c) :
    Safe (discipline h b) i (body h b op) c := by
  cases op with
  | run input =>
    have safe : Triple (discipline h b) i (fun _ => True) (do
        let _ ← runStandingHistoryDeliveryRecovery h b input
        pure () : Recovering Unit) fun _ _ => True := .seq (run_safe bounded digests input) fun _ => .pure fun _ _ _ => trivial
    exact safe.safe inv trivial

end Rules

/-- What the files of the recovery say, and what was sent. -/
structure Truthful (h : Host) (b : Binding) (c : Core recovery) : Prop where
  once : sends c ≤ 1
  original : ∀ i q, Event.call (S := recovery) i (.sendOnce q) ∈ c.trace → Original h b q
  readable : ∀ d, c.state.directory = some d → ∃ outcome, readStandingHistoryDeliveryRecovery h b d = .ok outcome
  incomplete : ∀ d, c.state.directory = some d → d.result = none → readStandingHistoryDeliveryRecovery h b d = .ok none
  receipt : ∀ d r, c.state.directory = some d → readStandingHistoryDeliveryRecovery h b d = .ok (some r) → Witnessed h b c r
  finished : ∀ i r, Event.act (S := recovery) i (.finish r) () ∈ c.trace → ∃ d outcome, c.state.directory = some d ∧
    readStandingHistoryDeliveryRecovery h b d = .ok outcome ∧ r = pilotResult outcome

/-- Over any runs, stopped anywhere and begun again, with any answers, the recovery sends at most once, the original message, and
what is read back is what the run that ended found. -/
theorem recovers_once (h : Host) (b : Binding) (bounded : b.Bounded) (digests : h.Digests) (w : World recovery)
    (run : Leads (body h b) (.initial {}) w) : Truthful h b w.core := by
  have inv : (discipline h b).inv ⟨{},[]⟩ := by
    refine ⟨fun _ => ⟨rfl,fun i member => ?_⟩,fun i j member => ?_,Nat.zero_le _,fun i q member => ?_,nofun,fun i r member => ?_⟩
    · cases member
    · cases member
    · cases member
    · cases member
  have governed : (World.initial (S := recovery) ({} : State)).Governed (discipline h b) := initial_governed inv fun _ => id
  have held : Inv h b w.core := (governed.leads discipline_sound (fun op i c _ inv => body_safe bounded digests op i c inv) run).inv
  refine ⟨held.once,held.original,fun d is_ => ?_,fun d is_ none_ => ?_,fun d r is_ read => ?_,fun i r member => ?_⟩
  · obtain ⟨outcome,read,_⟩ := (held.sound d is_).read bounded digests
    exact ⟨outcome,read⟩
  · obtain ⟨outcome,read,_,empty⟩ := (held.sound d is_).read bounded digests
    rw [read,empty none_]
  · obtain ⟨outcome,read',seen,_⟩ := (held.sound d is_).read bounded digests
    rw [read'] at read
    exact seen r (Except.ok.inj read)
  · obtain ⟨d,outcome,is_,_,read,result⟩ := held.finished i r member
    exact ⟨d,outcome,is_,read,result⟩

/-! One recovery whose anchor is gone. -/

def plainBinding : Binding where
  taskRef := "htask_777777777777777777777777777777777777777777777777"
  intentHash := "1111111111111111111111111111111111111111111111111111111111111111"
  descriptorHash := "2222222222222222222222222222222222222222222222222222222222222222"
  partIndex := 1
  originalRecordsHash := "3333333333333333333333333333333333333333333333333333333333333333"
  idempotencyKey := "4444444444444444444444444444444444444444444444444444444444444444"
  randomId := "5551234567890123456"
  accountId := "123"
  chatId := "-100456"
  replyToMessageId := 999
  contentHash := "b6ce788d9786917c9d19adaa0d904213365607c7f683d7277f508dcf142b4cc2"
  textBytes := 6

def plainOwner : String := "aaaaaaaaaaaaaaaaaaaaaaaaaaaaaaaaaaaaaaaaaaaaaaaaaaaaaaaaaaaaaaaa"

/-- The digests of the texts of this recovery. -/
def plainHost : Host where
  hash text :=
    if text = "Report" then "b6ce788d9786917c9d19adaa0d904213365607c7f683d7277f508dcf142b4cc2"
    else if text = canonical (intentOf plainBinding plainOwner true) then
      "b950d12dfc073055b23a014ad608e2689aab6ffbb30adfc400d0cd4b192cec7b"
    else ""

theorem plainHost_digests : plainHost.Digests := by
  intro text
  simp only [plainHost]
  split
  · decide +kernel
  · split <;> decide +kernel

def plainInput : Input where
  authorization := some ⟨"standing-history-delivery-recovery-authorization-v1",plainBinding,plainOwner⟩
  text := "Report"
  taskReplyPolicy := some standaloneIfExactMissing

/-- The message is sent as number 77 and read back without its anchor. -/
def sent (fiber : Nat) : Choice recovery Op :=
  .resume fiber fun
    | .host => some (.ok ())
    | .aborted => some false
    | .sendOnce _ => some (.ok (.obj [("messageId",int 77)]))
    | .readExact _ _ => some (.ok (.obj [("messageId",int 77),("chatId",.str "-100456"),("accountId",.str "123"),
        ("replyToMessageId",.null),("text",.str "Report"),("taskReplyOriginMessageId",int 999)]))

def recovered : List (Choice recovery Op) :=
  .invoke (.run plainInput) :: (List.replicate 22 (sent 0) ++ [.invoke (.run plainInput),sent 1,sent 1])

theorem recovers_once_plain : ∃ w : World recovery, Truthful plainHost plainBinding w.core ∧ sends w.core = 1 ∧
    (w.core.state.directory.map fun d => (readStandingHistoryDeliveryRecovery plainHost plainBinding d).toOption) =
      some (some (some ⟨77,true⟩)) := by
  have played : (World.play (body plainHost plainBinding) 200 200 recovered (.initial {})).any fun w =>
      decide (sends w.core = 1 ∧
        (w.core.state.directory.map fun d => (readStandingHistoryDeliveryRecovery plainHost plainBinding d).toOption) =
          some (some (some ⟨77,true⟩))) := by decide +kernel
  obtain ⟨w,run,holds⟩ := World.play_any played
  exact ⟨w,recovers_once plainHost plainBinding ⟨by decide,by decide⟩ plainHost_digests w run,of_decide_eq_true holds⟩

end Neurobro.History.Recovery
