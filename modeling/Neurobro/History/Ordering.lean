import Neurobro.History.Delivery

/-! The messages of a report go out in order and at most once each: what is read of the
directory tells what is there, every call leaves it at least as it was, and the transport is
called once in a directory that was made for it. -/
namespace Neurobro.History

open Durable Script Journal Pilot Report List

/-- The last record is verified, and no result takes it back. -/
structure Base.Verified (b : Base) : Prop where
  recorded : ∃ f r, b.pilot = some f ∧ f.terminal = .whole r ∧ r.state = .verified
  kept : ∀ receipt, b.result = some (.whole receipt) → receipt.result.state ≠ .unknown

def SlotDir.PartVerified (d : SlotDir) (k : Nat) : Prop := ∃ b, d.parts.get k = some b ∧ b.Verified

/-- The descriptor is on the disk, and reads back. -/
def SlotDir.Says (hash : String → String) (d : SlotDir) (descriptor : Descriptor) : Prop :=
  ∃ i sd, d.descriptor = some (.whole (i,sd)) ∧ Descriptor.stored hash i sd = .ok descriptor

section Reading
variable {h : Host} {i : Intent} {d : Descriptor}

theorem readRecord_some {part : Part} {slot : Slot} (read : readRecord h i part slot = .ok (some r)) : slot = .whole r:= by
  cases slot with
  | absent => cases read
  | torn => cases read
  | whole r' =>
    simp only [readRecord] at read
    split at read
    · cases read
      rfl
    · cases read

theorem readPilot_terminal {part : Part} (read : readPilot h i part f = .ok (some r)) : f.terminal = .whole r:= by
  obtain ⟨planned,_,rest⟩ := bind_ok read
  obtain ⟨sending,_,rest⟩ := bind_ok rest
  obtain ⟨last,terminal,rest⟩ := bind_ok rest
  simp only [fail] at rest
  cases (guard_eq_ok.mp rest).2
  exact readRecord_some terminal

theorem readResult_whole {part : Part} {result : Option PilotResult}
    (read : readResult h i d part last (some (.whole receipt)) = .ok result) : result = some receipt.result := by
  simp only [readResult] at read
  split at read
  · cases read
    rfl
  · cases read

theorem readPart_verified {part : Part} {saved : SavedPart} (read : readPart h i d part b = .ok saved)
    (verified : saved.delivery = .verified) : b.Verified := by
  obtain ⟨last,recorded,rest⟩ := bind_ok read
  obtain ⟨result,told,rest⟩ := bind_ok rest
  cases rest
  simp only at verified
  split at verified
  · cases verified
  rename_i known
  split at verified
  · rename_i state
    obtain ⟨r,rfl,verified⟩ := Option.map_eq_some_iff.mp state
    constructor
    · cases there : b.pilot with
      | none => rw [there] at recorded; cases recorded
      | some f =>
        rw [there] at recorded
        exact ⟨f,r,rfl,readPilot_terminal recorded,verified⟩
    · intro receipt is_ unknown
      rw [is_] at told
      rw [readResult_whole told] at known
      simp [unknown] at known
  · split at verified <;> cases verified

/-- As far as the walk got, the parts are verified; the one it stopped before is not there. -/
theorem readParts_verified {slot : SlotDir} {all rest : List Part}
    (read : readParts h i slot d all rest w = .ok w') (before : ∀ k, 0 < k → k ≤ w.verified → slot.PartVerified k)
    (unsaid : w.next = none) :
    (∀ k, 0 < k → k ≤ w'.verified → slot.PartVerified k) ∧ ∀ n, w'.next = some n → 0 < n ∧ slot.parts.get n = none := by
  induction rest generalizing w with
  | nil =>
    cases read
    exact ⟨before,fun n is_ => by rw [unsaid] at is_; cases is_⟩
  | cons part rest ih =>
    unfold readParts at read
    split at read
    · rename_i missing
      simp only [fail] at read
      cases (guard_eq_ok.mp read).2
      refine ⟨before,fun n is_ => ?_⟩
      simp only at is_
      split at is_
      · cases is_
        exact ⟨by omega,missing⟩
      · cases is_
    · rename_i b there
      simp only [fail] at read
      obtain ⟨inOrder,read⟩ := guard_eq_ok.mp read
      obtain ⟨saved,known,read⟩ := bind_ok read
      split at read
      · rename_i verified
        apply ih read _ unsaid
        intro k positive upTo
        by_cases last : k = part.index
        · exact ⟨b,by rw [last]; exact there,readPart_verified known verified⟩
        · simp only at upTo
          exact before k positive (by omega)
      · cases (guard_eq_ok.mp read).2
        exact ⟨before,fun n is_ => by rw [unsaid] at is_; cases is_⟩

/-- What a directory that reads well has to tell. -/
structure ReadsAs (h : Host) (i : Intent) (slot : SlotDir) (d : Descriptor) (status : DeliveryStatus) : Prop where
  told : status.descriptor = some d
  kept : ∃ sd, slot.descriptor = some (.whole (i,sd)) ∧ Descriptor.stored h.hash i sd = .ok d
  verified : ∀ n, status.verifiedParts = some n → ∀ k, 0 < k → k ≤ n → slot.PartVerified k
  next : ∀ n, status.nextPart = some n → 0 < n ∧ slot.parts.get n = none

theorem inspectParts_reads {slot : SlotDir} {status : DeliveryStatus} (read : inspectParts h i slot d = .ok status) :
    status.descriptor = some d ∧ (∀ n, status.verifiedParts = some n → ∀ k, 0 < k → k ≤ n → slot.PartVerified k) ∧
      ∀ n, status.nextPart = some n → 0 < n ∧ slot.parts.get n = none := by
  obtain ⟨w,walked,rest⟩ := bind_ok read
  cases rest
  obtain ⟨verified,next⟩ := readParts_verified walked (fun k positive upTo => absurd positive (by simp at upTo; omega)) rfl
  refine ⟨rfl,?_,next⟩
  intro n is_
  cases is_
  exact verified

theorem inspectWhole_reads {slot : SlotDir} {status : DeliveryStatus} (read : inspectWhole h i slot d = .ok status) :
    status.descriptor = some d ∧ status.verifiedParts = none ∧ status.nextPart = none := by
  obtain ⟨saved,_,rest⟩ := bind_ok read
  cases rest
  exact ⟨rfl,rfl,rfl⟩

theorem inspectSlot_reads {slot : SlotDir} {status : DeliveryStatus} (read : inspectSlot h i slot = .ok status)
    (ready : status.storage = .ready) : ∃ d, ReadsAs h i slot d status := by
  unfold inspectSlot at read
  simp only [fail] at read
  obtain ⟨_,read⟩ := guard_eq_ok.mp read
  split at read
  · cases read
    cases ready
  · cases read
  · rename_i envelope is_
    obtain ⟨d,stored,shown⟩ := bind_ok read
    obtain ⟨_,shown⟩ := guard_eq_ok.mp shown
    have kept : ∃ sd, slot.descriptor = some (.whole (i,sd)) ∧ Descriptor.stored h.hash i sd = .ok d := by
      simp only [openEnvelope] at stored
      split at stored
      · rename_i mine
        exact ⟨envelope.2,by rw [is_,← mine],stored⟩
      · cases stored
    split at shown
    · obtain ⟨told,verified,next⟩ := inspectParts_reads shown
      exact ⟨d,told,kept,verified,next⟩
    · obtain ⟨told,verified,next⟩ := inspectWhole_reads shown
      exact ⟨d,told,kept,fun n no => (by rw [verified] at no; cases no),fun n no => by rw [next] at no; cases no⟩

theorem delivery_reads {slot : Option SlotDir} (ready : (readStandingHistoryTaskDelivery h i slot).storage = .ready) :
    ∃ d, slot = some d ∧ ∃ descriptor, ReadsAs h i d descriptor (readStandingHistoryTaskDelivery h i slot) := by
  unfold readStandingHistoryTaskDelivery at *
  cases slot with
  | none => cases ready
  | some d =>
    simp only at *
    split at ready
    · rename_i status read
      obtain ⟨descriptor,reads⟩ := inspectSlot_reads read ready
      exact ⟨d,rfl,descriptor,reads⟩
    · cases ready

end Reading

/-! What no call takes back. -/

section Frames
variable {ρ α β : Type}

/-- The descriptor is the same, and no directory of a part is gone. -/
def SlotDir.Grows (d d' : SlotDir) : Prop :=
  d'.descriptor = d.descriptor ∧ ∀ k, (d.parts.get k).isSome → (d'.parts.get k).isSome

def Grows (a b : Option SlotDir) : Prop := ∀ d, a = some d → ∃ d', b = some d' ∧ d.Grows d'

theorem Grows.refl (a : Option SlotDir) : Grows a a := fun d is_ => ⟨d,is_,rfl,fun _ there => there⟩

theorem Grows.trans {a b c : Option SlotDir} (first : Grows a b) (second : Grows b c) : Grows a c := by
  intro d is_
  obtain ⟨d',is_',same,grows⟩ := first d is_
  obtain ⟨d'',is_'',same',grows'⟩ := second d' is_'
  exact ⟨d'',is_'',same'.trans same,fun k there => grows' k (grows k there)⟩

/-- Nothing was sent in between, and what was made is still there. -/
structure Frame (s s' : Desk ρ) : Prop where
  sends : s'.sends = s.sends
  slot : Grows s.slot s'.slot

theorem Frame.refl (s : Desk ρ) : Frame s s := ⟨rfl,.refl _⟩

theorem Frame.trans {s s' s'' : Desk ρ} (first : Frame s s') (second : Frame s' s'') : Frame s s'' :=
  ⟨second.sends.trans first.sends,first.slot.trans second.slot⟩

/-- A script that only adds to the directory. -/
def Framed (m : Script (Desk ρ) α) : Prop := ∀ s₀, Meets (Frame s₀) m (fun _ => Frame s₀) (Frame s₀)

namespace Framed

theorem pure : Framed (Pure.pure a : Script (Desk ρ) α) := fun _ => .pure fun _ held => held

theorem look {f : Desk ρ → α} : Framed (Script.look f) := fun _ => .look fun _ held => held

theorem guard {p : Prop} [Decidable p] : Framed (Script.guard p e : Script (Desk ρ) Unit) :=
  fun _ => .guard (fun _ held _ => held) fun _ held => held

theorem lift {r : Except String α} : Framed (Script.lift r : Script (Desk ρ) α) :=
  fun _ => .lift (fun _ _ held _ => held) fun _ held => held

theorem fallible : Framed (Script.fallible : Script (Desk ρ) Unit) := fun _ => .fallible fun _ held => held

theorem bind {m : Script (Desk ρ) α} {k : α → Script (Desk ρ) β} (first : Framed m) (next : ∀ a, Framed (k a)) :
    Framed (m >>= k) := fun s₀ => .bind (first s₀) fun a => next a s₀

theorem rescue {handler : String → Script (Desk ρ) α} (first : Framed m)
    (next : ∀ e, Framed (handler e)) : Framed (Script.rescue m handler) := fun s₀ => .rescue (first s₀) fun e => next e s₀

theorem note (frame : ∀ s, Frame s (f s)) : Framed (Script.note f) :=
  fun _ => .note fun s held => held.trans (frame s)

theorem lasting {f : Desk ρ → Except String (Unit × Desk ρ)} (frame : ∀ s s', f s = .ok ((),s') → Frame s s') :
    Framed (Script.lasting f) := fun _ =>
  .lasting (fun _ held => held) (fun s s' held ran => held.trans (frame s s' ran)) fun _ held => held

/-- What the frame keeps, the script keeps. -/
theorem keeps (framed : Framed m) (stable : ∀ s s', P s → Frame s s' → P s') : Meets P m (fun _ => P) P:= by
  refine .named fun s holds => ?_
  exact (framed s).weaken (fun s' is_ => is_ ▸ .refl s) (fun _ s' frame => stable s s' holds frame)
    fun s' frame => stable s s' holds frame

theorem consult (f : ρ → Except String α × ρ) : Framed (History.consult f) :=
  .bind look fun _ => .bind (.note fun s => ⟨rfl,.refl s.slot⟩) fun _ => lift

theorem readStatus (h : Host) (i : Intent) : Framed (History.readStatus h i : Script (Desk ρ) DeliveryStatus) :=
  .rescue (.bind fallible fun _ => look) fun _ => pure

/-- A step that changes what is in the directory. -/
theorem inSlot {f : SlotDir → Except String (Unit × SlotDir)} (grows : ∀ d d', f d = .ok ((),d') → d.Grows d') :
    Framed (Script.lasting (History.inSlot f) : Script (Desk ρ) Unit) := by
  apply lasting
  intro s s' ran
  unfold History.inSlot at ran
  split at ran
  · cases ran
  · rename_i d is_
    obtain ⟨⟨_,d'⟩,made,same⟩ := map_ok ran
    cases same
    refine ⟨rfl,fun g is_' => ?_⟩
    cases is_.symm.trans is_'
    exact ⟨d',rfl,grows d d' made⟩

end Framed

theorem setBase_grows (t : Turn) (b : Base) (d : SlotDir) : d.Grows (t.setBase b d) := by
  unfold Turn.setBase
  by_cases many : t.many = true
  · rw [if_pos many]
    refine ⟨rfl,fun k there => ?_⟩
    rw [Table.get_put]
    by_cases same : k = t.index
    · simp [same]
    · rw [if_neg same]
      exact there
  · rw [if_neg many]
    exact ⟨rfl,fun _ there => there⟩

theorem setVault_frame (t : Turn) (v : Vault) (s : Desk ρ) : Frame s (t.setVault v s) := by
  refine ⟨rfl,fun d is_ => ?_⟩
  exact ⟨t.setBase { t.base d with pilot := v.folder } d,by simp [Turn.setVault,is_],setBase_grows ..⟩

theorem recordReadback_framed (t : Turn) (record : PilotRecord) : Framed (recordReadback t record : Script (Desk ρ) Unit) :=
  .bind .fallible fun _ => .bind .look fun _ => .bind .guard fun _ => .fallible

theorem guardedStore_framed (h : Host) (t : Turn) (record : PilotRecord) (reserve : Bool) :
    Framed (guardedStore h t record reserve : Script (Desk ρ) Unit) := by
  refine .bind .guard fun _ => .bind .fallible fun _ => .bind ?_ fun _ => .bind .fallible fun _ => recordReadback_framed t record
  intro s₀
  apply Meets.zoom
  intro s held
  have whatever : Meets (fun _ => True) (operation record reserve) (fun _ _ => True) fun _ => True := by
    intro fates v _
    cases outcome : (operation record reserve fates v).1 <;> trivial
  exact whatever.weaken (fun _ _ => trivial) (fun _ v _ => held.trans (setVault_frame t v s))
    fun v _ => held.trans (setVault_frame t v s)

theorem recordResult_framed (h : Host) (t : Turn) (result : PilotResult) :
    Framed (recordResult h t result : Script (Desk ρ) Unit) := by
  refine .bind .fallible fun _ => .bind ?_ fun _ => .bind ?_ fun _ => .fallible
  · apply Framed.inSlot
    intro d d' ran
    unfold openResult at ran
    split at ran
    · cases ran
    · cases ran
      exact setBase_grows ..
  · apply Framed.inSlot
    intro d d' ran
    cases ran
    exact setBase_grows ..

end Frames

/-! The one call of the transport. -/

/-- When the transport was called, the directory said so and the parts before were verified. -/
def Sent.Prior (hash : String → String) (descriptor : Descriptor) (x : Sent) : Prop :=
  ∃ d, x.slot = some d ∧ d.Says hash descriptor ∧ ∀ k, 0 < k → k < x.part → d.PartVerified k

/-- The directory was made for this message. -/
structure Claimed (h : Host) (t : Turn) (slot : Option SlotDir) : Prop where
  single : t.many = false → t.index = 1 ∧ ∃ d sd, slot = some d ∧ d.descriptor = some (.whole (t.intent,sd)) ∧ sd.schema = .v1 ∧
    Descriptor.stored h.hash t.intent sd = .ok t.descriptor
  made : t.many = true → ∃ d, slot = some d ∧ (d.parts.get t.index).isSome

theorem Claimed.grown (claimed : Claimed h t a) (grows : Grows a b) : Claimed h t b:= by
  constructor
  · intro single
    obtain ⟨first,d,sd,is_,kept,one,stored⟩ := claimed.single single
    obtain ⟨d',is_',same,_⟩ := grows d is_
    exact ⟨first,d',sd,is_',same.trans kept,one,stored⟩
  · intro many
    obtain ⟨d,is_,there⟩ := claimed.made many
    obtain ⟨d',is_',_,more⟩ := grows d is_
    exact ⟨d',is_',more _ there⟩

section Reply
variable {ρ : Type} {h : Host} {e : TaskHost ρ} {t : Turn} {s₀ : Desk ρ}

/-- Every call of the transport has left its mark on the trace. -/
structure Sending (h : Host) (t : Turn) (s₀ : Desk ρ) (s : Traced (Desk ρ)) : Prop where
  claimed : Claimed h t s.1.slot
  slot : Grows s₀.slot s.1.slot
  sends : ∃ new,s.1.sends = s₀.sends ++ new ∧ new.length ≤ (s.2.filter Event.isSent).length ∧
    ∀ x ∈ new, x.part = t.index ∧ x.Prior h.hash t.descriptor ∧ ∃ answer, .sent x.send answer ∈ s.2

theorem Sending.more {s : Desk ρ} {trace : List Event} (sending : Sending h t s₀ (s,trace)) {s' : Desk ρ} (frame : Frame s s')
    (events : List Event) : Sending h t s₀ (s',trace ++ events) := by
  obtain ⟨claimed,slot,new,sends,few,all⟩ := sending
  refine ⟨claimed.grown frame.slot,slot.trans frame.slot,new,frame.sends.trans sends,?_,fun x member => ?_⟩
  · simp only [filter_append,length_append]
    simp only at few
    omega
  · obtain ⟨part,prior,answer,there⟩ := all x member
    exact ⟨part,prior,answer,mem_append_left _ there⟩

theorem outside_frame {α : Type} (f : ρ → α × ρ) (s : Desk ρ) : Frame s (outside f s).2 := ⟨rfl,.refl _⟩

theorem ask_sending {α : Type} (f : Desk ρ → α × Desk ρ) (mark : α → List Event)
    (next : ∀ s trace, Sending h t s₀ (s,trace) → Sending h t s₀ ((f s).2,trace ++ mark (f s).1)) :
    Meets (Sending h t s₀) (ask f mark) (fun _ => Sending h t s₀) (Sending h t s₀) := by
  intro fates s held
  exact next s.1 s.2 held

theorem keep_sending {put : Script (Desk ρ) Unit} (framed : Framed put) (record : PilotRecord) :
    Meets (Sending h t s₀) (keep put record) (fun _ => Sending h t s₀) (Sending h t s₀) := by
  have marked : ∀ event, Meets (Sending h t s₀) (mark event) (fun _ => Sending h t s₀) (Sending h t s₀) := fun event =>
    .note fun s held => held.more (.refl s.1) [event]
  have stays : ∀ s : Traced (Desk ρ), Sending h t s₀ s → ∀ s', Frame s.1 s' → Sending h t s₀ (s',s.2) := by
    intro s held s' frame
    have more := held.more frame []
    rw [append_nil] at more
    exact more
  apply Meets.rescue
  · apply Meets.bind (M := fun _ => Sending h t s₀)
    · apply Meets.zoom
      intro s held
      exact (framed s.1).weaken (fun s' is_ => is_ ▸ .refl s.1) (fun _ s' frame => stays s held s' frame) fun s' frame =>
        stays s held s' frame
    · exact fun _ => marked _
  · intro no
    exact .bind (marked _) fun _ => .throw fun _ held => held

/-- Where the transport is called, everything before this part is verified. -/
theorem prefixVerified_prior {slot : Option SlotDir} (claimed : Claimed h t slot) (verified : prefixVerified h t slot = true)
    (send : PilotSend) : Sent.Prior h.hash t.descriptor ⟨t.index,send,slot⟩ := by
  by_cases many : t.many = true
  · simp only [prefixVerified,many,Bool.not_true,Bool.false_or,Bool.and_eq_true,decide_eq_true_eq] at verified
    obtain ⟨⟨ready,counted⟩,told⟩ := verified
    obtain ⟨d,is_,descriptor,reads⟩ := delivery_reads ready
    cases told.symm.trans reads.told
    obtain ⟨sd,kept,stored⟩ := reads.kept
    refine ⟨d,is_,⟨t.intent,sd,kept,stored⟩,fun k positive before => ?_⟩
    simp only at before
    cases is_n : (readStandingHistoryTaskDelivery h t.intent slot).verifiedParts with
    | none => simp [is_n] at counted
    | some n =>
      have next : n + 1 = t.index := by simpa [is_n] using counted
      exact reads.verified n is_n k positive (by omega)
  · obtain ⟨first,d,sd,is_,kept,_,stored⟩ := claimed.single (Bool.eq_false_iff.mpr many)
    refine ⟨d,is_,⟨t.intent,sd,kept,stored⟩,fun k positive before => ?_⟩
    simp only at before
    omega

theorem sendOnce_sending (send : PilotSend) (s : Desk ρ) (trace : List Event) (held : Sending h t s₀ (s,trace)) :
    Sending h t s₀ ((t.sendOnce h e send s).2,trace ++ [.sent send (t.sendOnce h e send s).1]) := by
  unfold Turn.sendOnce
  simp only
  split
  · rename_i fine
    obtain ⟨claimed,slot,new,sends,few,all⟩ := held
    have verified := (Bool.and_eq_true_iff.mp fine).2
    refine ⟨claimed,slot,new ++ [⟨t.index,send,s.slot⟩],?_,?_,fun x member => ?_⟩
    · simp only at sends
      simp [sends]
    · rw [filter_append,length_append,length_append]
      exact Nat.add_le_add_right few 1
    · obtain old | now := mem_append.mp member
      · obtain ⟨part,prior,answer,there⟩ := all x old
        exact ⟨part,prior,answer,mem_append_left _ there⟩
      · cases mem_singleton.mp now
        exact ⟨rfl,prefixVerified_prior claimed verified send,_,mem_append_right _ mem_cons_self⟩
  · have frame : Frame s { s with env := (freshHeads e t.head t.readiness s.env).2 } := ⟨rfl,.refl _⟩
    exact held.more frame _

theorem world_sending : (t.world h e).ports.Keep (Sending h t s₀) := by
  have frames : ∀ s : Desk ρ, Frame s ((t.world h e).stopped s).2 := by
    intro s
    unfold World.stopped
    split <;> exact ⟨rfl,.refl _⟩
  refine ⟨?_,fun record => keep_sending (guardedStore_framed _ _ _ _) record,fun record => keep_sending (guardedStore_framed _ _ _ _) record,
    ?_,?_,fun send => ?_,fun chatId messageId => ?_⟩
  · exact ask_sending _ _ fun s trace held => held.more (outside_frame _ s) _
  · exact ask_sending _ _ fun s trace held => held.more (frames s) _
  · exact ask_sending _ _ fun s trace held => held.more (outside_frame _ s) _
  · exact ask_sending _ _ fun s trace held => sendOnce_sending send s trace held
  · exact ask_sending _ _ fun s trace held => held.more (outside_frame _ s) _

/-- What the transport is called with is the text of the part. -/
theorem sent_text (sends : Sends h (some t.input) events) {send : PilotSend} {answer : Settled (Option Int)}
    (member : .sent send answer ∈ events) : send.text = t.part.text := by
  obtain ⟨before,after,is_⟩ := append_of_mem member
  obtain ⟨t',⟨i,randomId,given,_,shaped,_⟩,_,same⟩ := sends.recorded before send answer after is_
  cases given
  have planned : t'.reply = t.input.reply := (Option.some.inj shaped).symm
  calc send.text = t'.reply.text := by rw [same]; rfl
    _ = t.part.text := by rw [planned]; rfl

/-- The transport was called once at most, with this message and in order. -/
structure Replied (h : Host) (t : Turn) (s₀ s : Desk ρ) : Prop where
  slot : Grows s₀.slot s.slot
  sends : s.sends = s₀.sends ∨ ∃ x, s.sends = s₀.sends ++ [x] ∧ x.part = t.index ∧ x.Prior h.hash t.descriptor ∧
    x.send.text = t.part.text

theorem sending_replied (sending : Sending h t s₀ s) (sends : Sends h (some t.input) s.2) : Replied h t s₀ s.1:= by
  obtain ⟨_,slot,new,grown,few,all⟩ := sending
  have once := sends.once
  refine ⟨slot,?_⟩
  match new with
  | [] => exact .inl (by rw [grown,append_nil])
  | [x] =>
    obtain ⟨part,prior,answer,there⟩ := all x mem_cons_self
    exact .inr ⟨x,grown,part,prior,sent_text sends there⟩
  | x :: y :: rest =>
    simp only [length_cons] at few
    omega

theorem reply_meets (claimed : Claimed h t s₀.slot) :
    Meets (fun s => s = s₀) (reply h e t) (fun _ => Replied h t s₀) (Replied h t s₀) := by
  apply Meets.zoom
  rintro s rfl
  have yields : Yields [] (runPilotReply h (t.world h e).ports (some t.input)) (Conforms h (some t.input)) := runPilotReply_yields _
  have keep : (t.world h e).ports.Keep (Sending h t s) := world_sending
  have kept := runPilotReply_keeps (h := h) keep (some t.input)
  apply (kept.both yields).weaken
  · rintro _ rfl
    exact ⟨⟨claimed,.refl _,[],by simp,by simp,by simp⟩,rfl⟩
  · rintro result traced ⟨sending,events,is_,conforms⟩
    rw [nil_append] at is_
    exact sending_replied sending (is_ ▸ conforms_sends conforms)
  · rintro traced ⟨sending,result,events,part,conforms⟩
    exact sending_replied sending ((conforms_sends conforms).first part)

end Reply

/-! The report that is fixed in the directory. -/

section Turns
variable {h : Host} {i : Intent}

theorem copy_ok {hash : String → String} (copied : Descriptor.copy hash i d = .ok d') : d' = d := by
  obtain ⟨r,_,rest⟩ := bind_ok copied
  simp only [fail] at rest
  obtain ⟨_,rest⟩ := guard_eq_ok.mp rest
  obtain ⟨prepared,_,rest⟩ := bind_ok rest
  exact (Except.ok.inj (guard_eq_ok.mp rest).2).symm

theorem stored_schema {hash : String → String} (stored : Descriptor.stored hash i sd = .ok d) : d.schema = sd.schema:= by
  unfold Descriptor.stored at stored
  split at stored
  · split at stored
    · rw [copy_ok stored]
    · cases stored
  · simp only [fail] at stored
    obtain ⟨_,stored⟩ := guard_eq_ok.mp stored
    split at stored
    · cases stored
    · rw [copy_ok (guard_eq_ok.mp stored).2]

/-- A report of one message reads back as it was written. -/
theorem stored_single {hash : String → String} (copied : Descriptor.copy hash i d = .ok d)
    (single : d.schema = .v1) : Descriptor.stored hash i d.persisted = .ok d := by
  simp only [Descriptor.stored,Descriptor.persisted,single,if_true]
  rw [← single]
  exact copied

theorem splitReportBody_ne {body : List Char} (cut : splitReportBody fuel body = .ok chunks) : chunks ≠ []:= by
  cases fuel with
  | zero => cases cut
  | succ fuel =>
    unfold splitReportBody at cut
    split at cut
    · obtain ⟨chunk,_,rest⟩ := bind_ok cut
      split at rest
      · obtain ⟨later,_,same⟩ := bind_ok rest
        cases same
        exact cons_ne_nil _ _
      · cases rest
    · split at cut
      · cases cut
        exact cons_ne_nil _ _
      · cases cut

theorem partsOf_index {hash : String → String} {closing : String}
    (there : (partsOf hash chunks closing)[n]? = some p) : p.index = n + 1 := by
  unfold partsOf at there
  by_cases early : n < chunks.length
  · rw [List.getElem?_append_left (by simpa using early)] at there
    simp only [List.getElem?_mapIdx,Option.map_eq_some_iff] at there
    obtain ⟨chunk,_,rfl⟩ := there
    rfl
  · rw [List.getElem?_append_right (by simpa using early)] at there
    simp only [length_mapIdx,List.getElem?_singleton] at there
    split at there
    · cases there
      simp only [part]
      omega
    · cases there

/-- The parts are numbered from one, and a single one has the whole text. -/
theorem prepareText_parts {hash : String → String} {body : String} {prepared : Prepared}
    (made : prepareText hash i readiness body = .ok prepared) :
    (∀ n p, prepared.parts[n]? = some p → p.index = n + 1) ∧
      (prepared.parts.length ≤ 1 → prepared.parts = [part hash 1 .combined prepared.text]) := by
  obtain ⟨r,_,rest⟩ := bind_ok made
  simp only [fail] at rest
  obtain ⟨_,rest⟩ := guard_eq_ok.mp rest
  obtain ⟨_,rest⟩ := guard_eq_ok.mp rest
  obtain ⟨_,rest⟩ := guard_eq_ok.mp rest
  obtain ⟨chunks,cut,rest⟩ := bind_ok rest
  cases (guard_eq_ok.mp rest).2
  simp only
  split
  · refine ⟨fun n p there => ?_,fun _ => rfl⟩
    rw [List.getElem?_singleton] at there
    split at there
    · cases there
      simp only [part]
      omega
    · cases there
  · refine ⟨fun n p there => partsOf_index there,fun short => ?_⟩
    have some := length_pos_of_ne_nil (splitReportBody_ne cut)
    simp only [partsOf,length_append,length_mapIdx,length_singleton] at short
    omega

/-- The message is one of the report, which reads back as it was written. -/
structure Turn.Fits (h : Host) (t : Turn) : Prop where
  copied : Descriptor.copy h.hash t.intent t.descriptor = .ok t.descriptor
  schema : t.many = true ↔ t.descriptor.schema ≠ .v1
  message : (t.descriptor.messages h.hash)[t.index - 1]? = some t.part
  numbered : t.part.index = t.index

theorem schemaOf_single (total : Nat) : schemaOf total = .v1 ↔ total ≤ 1 := by
  unfold schemaOf
  by_cases two : 2 < total
  · simp [two]
    omega
  · by_cases one : 1 < total
    · simp [two,one]
    · simp [two,one]
      omega

variable {v : DeliveryInput} {head : String} {root : Root} {existing : Option DeliveryStatus} {t : Turn}

theorem turnOf_fits (made : turnOf h v head root existing = .ok t)
    (ready : ∀ status, existing = some status → continues status = true ∧ ∀ n, status.nextPart = some n → 0 < n) :
    t.Fits h ∧ (existing.isSome = true → t.many = true) ∧ (existing.isSome = false → t.index = 1) := by
  unfold turnOf at made
  split at made
  · cases made
  rename_i body chosen
  obtain ⟨prepared,cut,rest⟩ := bind_ok made
  obtain ⟨descriptor,copied,rest⟩ := bind_ok rest
  simp only [fail] at rest
  obtain ⟨same,rest⟩ := guard_eq_ok.mp rest
  split at rest
  · cases rest
  rename_i part there
  cases rest
  have is_ := copy_ok copied
  have again := copied
  rw [← is_] at again
  obtain ⟨numbered,single⟩ := prepareText_parts cut
  have schema : descriptor.schema = schemaOf prepared.parts.length := by rw [is_]
  have positive : 0 < (existing.bind fun s => s.nextPart).getD 1 := by
    cases known : existing.bind fun s => s.nextPart with
    | none => simp
    | some n =>
      obtain ⟨status,is_status,next⟩ := Option.bind_eq_some_iff.mp known
      exact (ready status is_status).2 n next
  have many : decide (1 < prepared.parts.length) = true ↔ descriptor.schema ≠ .v1 := by
    rw [schema,ne_eq,schemaOf_single]
    simp
  refine ⟨⟨again,many,?_,?_⟩,fun present => ?_,fun absent => ?_⟩
  · have messages : descriptor.messages h.hash = prepared.parts := by
      by_cases more : 1 < prepared.parts.length
      · simp [Descriptor.messages,is_,more]
      · simp only [Descriptor.messages,is_,if_neg more,Option.getD_none]
        exact (single (by omega)).symm
    rw [messages]
    exact there
  · have index := numbered _ _ there
    simp only
    omega
  · obtain ⟨status,is_status⟩ := Option.isSome_iff_exists.mp present
    have fits := (ready status is_status).1
    have told : status.descriptor = some descriptor := by simpa [is_status] using same
    simp only [continues,told,Option.map_some,Bool.and_eq_true,decide_eq_true_eq] at fits
    apply many.mpr
    intro one
    exact fits.1.2 (congrArg some one)
  · cases existing with
    | none => rfl
    | some status => cases absent

end Turns

/-! Every call keeps the order. -/

/-- A directory in which this part may have been sent. -/
def SlotDir.Tried (d : SlotDir) (k : Nat) : Prop :=
  (d.parts.get k).isSome ∨ k = 1 ∧ ∃ i sd, d.descriptor = some (.whole (i,sd)) ∧ sd.schema = .v1

/-- The message is the one of its number in the report that was on the disk, and the ones
before it were verified there. -/
def Sent.InOrder (hash : String → String) (x : Sent) : Prop :=
  ∃ d descriptor part, x.slot = some d ∧ d.Says hash descriptor ∧ (descriptor.messages hash)[x.part - 1]? = some part ∧
    part.index = x.part ∧ x.send.text = part.text ∧ ∀ k, 0 < k → k < x.part → d.PartVerified k

section Calls
variable {ρ : Type} {h : Host} {e : TaskHost ρ} {t : Turn}

structure Ordered (h : Host) (s : Desk ρ) : Prop where
  once : (s.sends.map Sent.part).Nodup
  inOrder : ∀ x ∈ s.sends, x.InOrder h.hash
  tried : ∀ x ∈ s.sends, ∃ d, s.slot = some d ∧ d.Tried x.part

theorem SlotDir.Tried.grown {d d' : SlotDir} (tried : d.Tried k) (grows : d.Grows d') : d'.Tried k := by
  obtain there | ⟨first,i,sd,kept,one⟩ := tried
  · exact .inl (grows.2 k there)
  · exact .inr ⟨first,i,sd,grows.1.trans kept,one⟩

theorem Ordered.grown {s s' : Desk ρ} (ordered : Ordered h s) (same : s'.sends = s.sends) (grows : Grows s.slot s'.slot) :
    Ordered h s' := by
  refine ⟨by rw [same]; exact ordered.once,by rw [same]; exact ordered.inOrder,?_⟩
  rw [same]
  intro x member
  obtain ⟨d,is_,tried⟩ := ordered.tried x member
  obtain ⟨d',is_',more⟩ := grows d is_
  exact ⟨d',is_',tried.grown more⟩

theorem Ordered.frame (ordered : Ordered h s) (frame : Frame s s') : Ordered h s' :=
  ordered.grown frame.sends frame.slot

/-- The directory was made for a message that was never sent. -/
structure Fresh (h : Host) (t : Turn) (s : Desk ρ) : Prop extends Ordered h s where
  claimed : Claimed h t s.slot
  unsent : ∀ x ∈ s.sends, x.part ≠ t.index

theorem Fresh.frame (fresh : Fresh h t s) (frame : Frame s s') : Fresh h t s' :=
  ⟨fresh.toOrdered.frame frame,fresh.claimed.grown frame.slot,by rw [frame.sends]; exact fresh.unsent⟩

theorem Claimed.tried {slot : Option SlotDir} (claimed : Claimed h t slot) : ∃ d, slot = some d ∧ d.Tried t.index := by
  by_cases many : t.many = true
  · obtain ⟨d,is_,there⟩ := claimed.made many
    exact ⟨d,is_,.inl there⟩
  · obtain ⟨first,d,sd,is_,kept,one,_⟩ := claimed.single (Bool.eq_false_iff.mpr many)
    exact ⟨d,is_,.inr ⟨first,t.intent,sd,kept,one⟩⟩

/-- One more message is in order. -/
theorem Fresh.replied (fresh : Fresh h t s) (fits : t.Fits h) (replied : Replied h t s s') : Ordered h s' := by
  obtain same | ⟨x,more,part,⟨d,is_,told,verified⟩,text⟩ := replied.sends
  · exact fresh.toOrdered.grown same replied.slot
  · have grown : Ordered h { s with slot := s'.slot } := fresh.toOrdered.grown rfl replied.slot
    refine ⟨?_,?_,?_⟩
    · rw [more,map_append]
      apply List.Nodup.append fresh.once (nodup_singleton _)
      intro k old now
      obtain ⟨y,member,rfl⟩ := mem_map.mp old
      exact fresh.unsent y member ((mem_singleton.mp now).trans part)
    · rw [more]
      intro y member
      obtain old | now := mem_append.mp member
      · exact fresh.inOrder y old
      · cases mem_singleton.mp now
        refine ⟨d,t.descriptor,t.part,is_,told,?_,by rw [part]; exact fits.numbered,text,verified⟩
        rw [part]
        exact fits.message
    · rw [more]
      intro y member
      obtain old | now := mem_append.mp member
      · exact grown.tried y old
      · cases mem_singleton.mp now
        rw [part]
        exact (fresh.claimed.grown replied.slot).tried

/-- The step that makes the directory fails where there is one. -/
theorem mkdirSlot_fresh (ordered : Ordered h s) (made : mkdirSlot s = .ok ((),s')) : s'.sends = [] ∧ s'.slot = some {}:= by
  unfold mkdirSlot at made
  split at made
  · cases made
  · rename_i absent
    cases made
    refine ⟨?_,rfl⟩
    apply eq_nil_iff_forall_not_mem.mpr
    intro x member
    obtain ⟨d,is_,_⟩ := ordered.tried x member
    rw [absent] at is_
    cases is_

theorem ordered_unsent (none_ : s.sends = []) : Ordered h s := by
  refine ⟨by simp [none_],?_,?_⟩ <;> (rw [none_]; intro x no; cases no)

/-- A new task has its directory and a descriptor. -/
theorem claimSlot_new (fits : t.Fits h) (first : t.index = 1) :
    Meets (Ordered h) (claimSlot h t false : Script (Desk ρ) Unit)
      (fun _ s => Ordered h s ∧ (t.many = false → Fresh h t s)) (Ordered h) := by
  unfold claimSlot
  rw [if_neg Bool.false_ne_true]
  apply Meets.bind (M := fun _ s => s.sends = [] ∧ s.slot = some {})
  · exact .lasting (fun _ held => held) (fun s s' held made => mkdirSlot_fresh held made) fun _ held => ordered_unsent held.1
  intro _
  apply Meets.bind (Meets.fallible fun _ held => ordered_unsent held.1)
  intro _
  apply Meets.bind (M := fun _ s => s.sends = [] ∧ s.slot = some {})
  · exact .guard (fun _ held _ => held) fun _ held => ordered_unsent held.1
  intro _
  apply Meets.bind (M := fun _ s => s.sends = [] ∧ ∃ d, s.slot = some d)
  · refine .lasting (fun _ held => ordered_unsent held.1) (fun s s' held made => ?_) fun _ held => ordered_unsent held.1
    simp only [inSlot,held.2] at made
    obtain ⟨⟨_,d⟩,_,same⟩ := map_ok made
    cases same
    exact ⟨held.1,d,rfl⟩
  intro _
  apply Meets.bind (M := fun _ s => s.sends = [] ∧ ∃ d, s.slot = some d ∧ d.descriptor = some (.whole (t.intent,t.descriptor.persisted)))
  · refine .lasting (fun _ held => ordered_unsent held.1) (fun s s' held made => ?_) fun _ held => ordered_unsent held.1
    obtain ⟨none_,d,is_⟩ := held
    simp only [inSlot,is_] at made
    obtain ⟨⟨_,d'⟩,filled,same⟩ := map_ok made
    cases same
    cases filled
    exact ⟨none_,_,rfl,rfl⟩
  intro _
  apply (Meets.fallible fun _ held => ordered_unsent held.1).post
  rintro _ s ⟨none_,d,is_,kept⟩
  refine ⟨ordered_unsent none_,fun single => ⟨ordered_unsent none_,⟨fun _ => ?_,fun many => ?_⟩,?_⟩⟩
  · have one : t.descriptor.schema = .v1 := by
      by_contra other
      rw [fits.schema.mpr other] at single
      cases single
    exact ⟨first,d,t.descriptor.persisted,is_,kept,one,stored_single fits.copied one⟩
  · rw [single] at many
    cases many
  · rw [none_]
    intro x no
    cases no

theorem claimSlot_old : Framed (claimSlot h t true : Script (Desk ρ) Unit) := by
  unfold claimSlot
  rw [if_pos rfl]
  exact .bind .fallible fun _ => .bind .look fun _ => .guard

/-- Where the part is the next one, it was not tried. -/
theorem isNext_untried {slot : Option SlotDir} (fits : t.Fits h) (many : t.many = true)
    (next : isNext t (readStandingHistoryTaskDelivery h t.intent slot) = true) : ∀ d, slot = some d → ¬d.Tried t.index := by
  simp only [isNext,Bool.and_eq_true,decide_eq_true_eq] at next
  obtain ⟨⟨ready,next⟩,told⟩ := next
  obtain ⟨d,is_,descriptor,reads⟩ := delivery_reads ready
  cases told.symm.trans reads.told
  obtain ⟨sd,kept,stored⟩ := reads.kept
  rintro d' is_' (there | ⟨_,i,sd',kept',one⟩)
  · cases is_.symm.trans is_'
    rw [(reads.next _ next).2] at there
    cases there
  · cases is_.symm.trans is_'
    cases kept.symm.trans kept'
    exact fits.schema.mp many ((stored_schema stored).trans one)

theorem readStatus_meets : Meets P (readStatus h i : Script (Desk ρ) DeliveryStatus)
    (fun status s => P s ∧ (status = unavailable ∨ status = readStandingHistoryTaskDelivery h i s.slot)) P := by
  apply Meets.rescue
  · apply Meets.bind (Meets.fallible fun _ held => held)
    intro _
    exact .look fun _ held => ⟨held,.inr rfl⟩
  · intro _
    exact .pure fun _ held => ⟨held,.inl rfl⟩

theorem claimPart_meets (fits : t.Fits h) :
    Meets (fun s => Ordered h s ∧ (t.many = false → Fresh h t s)) (claimPart h t : Script (Desk ρ) Unit) (fun _ => Fresh h t)
      (Ordered h) := by
  apply Meets.when
  · intro many
    apply Meets.bind (readStatus_meets.weaken (fun _ held => held.1) (fun _ _ held => held) fun _ held => held)
    intro before
    apply Meets.bind (M := fun _ s => Ordered h s ∧ ∀ d, s.slot = some d → ¬d.Tried t.index)
    · refine .guard (fun s held clear => ⟨held.1,?_⟩) fun s held => held.1
      have next : isNext t before = true := by simpa using clear
      obtain rfl | rfl := held.2
      · cases next
      · exact isNext_untried fits many next
    intro _
    apply Meets.bind (Meets.fallible fun _ held => held.1)
    intro _
    apply Meets.bind (M := fun _ => Fresh h t)
    · refine .lasting (fun _ held => held.1) (fun s s' held made => ?_) fun _ fresh => fresh.toOrdered
      obtain ⟨ordered,untried⟩ := held
      unfold inSlot at made
      split at made
      · cases made
      rename_i d is_
      obtain ⟨⟨_,d'⟩,filled,same⟩ := map_ok made
      cases same
      unfold mkdirPart at filled
      split at filled
      · cases filled
      cases filled
      have grows : d.Grows { d with parts := d.parts.put t.index {} } := by
        refine ⟨rfl,fun k there => ?_⟩
        by_cases now : k = t.index
        · simp [now]
        · simpa [Table.get_put,now] using there
      refine ⟨ordered.grown rfl fun d₀ is_₀ => ?_,⟨fun single => ?_,fun _ => ⟨_,rfl,by simp⟩⟩,fun x member part => ?_⟩
      · cases is_.symm.trans is_₀
        exact ⟨_,rfl,grows⟩
      · rw [many] at single
        cases single
      · obtain ⟨d₀,is_₀,tried⟩ := ordered.tried x member
        rw [part] at tried
        exact untried d₀ is_₀ tried
    intro _
    exact .fallible fun _ fresh => fresh.toOrdered
  · intro single s held
    exact held.2 (Bool.eq_false_iff.mpr single)

theorem attemptPart_meets (fits : t.Fits h) (old : existing = true → t.many = true)
    (first : existing = false → t.index = 1) :
    Meets (Ordered h) (attemptPart h e t existing : Script (Desk ρ) DeliveryRunResult) (fun _ => Ordered h) (Ordered h) := by
  apply Meets.bind (M := fun _ s => Ordered h s ∧ (t.many = false → Fresh h t s))
  · cases existing with
    | false => exact claimSlot_new fits (first rfl)
    | true =>
      apply (claimSlot_old.keeps fun _ _ held frame => Ordered.frame held frame).post
      refine fun _ s held => ⟨held,fun single => ?_⟩
      rw [old rfl] at single
      cases single
  intro _
  apply Meets.bind (M := fun _ s => Ordered h s ∧ (t.many = false → Fresh h t s))
  · have kept := (Framed.consult (freshHeads e t.head t.readiness)).keeps (P := fun s : Desk ρ => Ordered h s ∧
      (t.many = false → Fresh h t s)) fun s s' held frame => ⟨held.1.frame frame,fun single => (held.2 single).frame frame⟩
    exact kept.weaken (fun _ held => held) (fun _ _ held => held) fun _ held => held.1
  intro _
  apply Meets.bind (claimPart_meets fits)
  intro _
  apply Meets.bind (M := fun _ => Fresh h t)
  · have kept := (Framed.consult e.openReply).keeps (P := Fresh h t) fun _ _ held frame => Fresh.frame held frame
    exact kept.weaken (fun _ held => held) (fun _ _ held => held) fun _ held => held.toOrdered
  intro _
  apply Meets.bind (M := fun _ => Fresh h t)
  · exact .note fun s fresh => fresh.frame ⟨rfl,.refl _⟩
  intro _
  apply Meets.bind (M := fun _ => Ordered h)
  · refine .named fun s fresh => ?_
    exact (reply_meets fresh.claimed).weaken (fun _ is_ => is_) (fun _ _ replied => fresh.replied fits replied)
      fun _ replied => fresh.replied fits replied
  intro result
  apply Framed.keeps _ fun _ _ held frame => Ordered.frame held frame
  exact .bind (.consult e.closeLease) fun _ => .bind (recordResult_framed h t result) fun _ => .bind (.readStatus h t.intent) fun _ =>
    .bind .guard fun _ => .pure

/-- What another part may follow is there and well formed. -/
theorem existingStatus_meets :
    Meets (Ordered h) (existingStatus h i : Script (Desk ρ) (Option DeliveryStatus))
      (fun existing s => Ordered h s ∧ ∀ status, existing = some status → continues status = true ∧
        ∀ n, status.nextPart = some n → 0 < n) (Ordered h) := by
  apply Meets.bind (M := fun _ => Ordered h)
  · exact .look fun _ held => held
  intro there
  apply Meets.ite
  · intro _
    apply Meets.bind (Meets.fallible fun _ held => held)
    intro _
    apply Meets.bind readStatus_meets
    intro status
    apply Meets.bind (M := fun _ s => Ordered h s ∧ continues status = true ∧ ∀ n, status.nextPart = some n → 0 < n)
    · refine .guard (fun s held clear => ⟨held.1,by simpa using clear,fun n is_ => ?_⟩) fun _ held => held.1
      obtain rfl | rfl := held.2
      · cases is_
      · by_cases ready : (readStandingHistoryTaskDelivery h i s.slot).storage = .ready
        · obtain ⟨d,_,descriptor,reads⟩ := delivery_reads ready
          exact (reads.next n is_).1
        · simp [continues,ready] at clear
    intro _
    refine .pure fun s held => ⟨held.1,fun status' is_ => ?_⟩
    cases is_
    exact held.2
  · intro _
    refine .pure fun s held => ⟨held,fun status no => ?_⟩
    cases no

theorem run_meets (input : Option DeliveryInput) :
    Meets (Ordered h) (runStandingHistoryTaskDelivery h e input : Script (Desk ρ) DeliveryRunResult) (fun _ => Ordered h)
      (Ordered h) := by
  have keeps : ∀ {α : Type} {m : Script (Desk ρ) α}, Framed m → Meets (Ordered h) m (fun _ => Ordered h) (Ordered h) :=
    fun framed => framed.keeps fun _ _ held frame => Ordered.frame held frame
  cases input with
  | none => exact .throw fun _ held => held
  | some v =>
    apply Meets.bind (keeps .lift)
    intro _
    apply Meets.bind (keeps (.consult (live e)))
    intro _
    apply Meets.bind (keeps .fallible)
    intro _
    apply Meets.bind existingStatus_meets
    intro existing
    refine .assume (fun _ held => held.2) fun known => ?_
    apply Meets.bind ((keeps .guard).pre fun _ held => held.1)
    intro _
    apply Meets.bind (keeps (.consult e.queued))
    intro head
    apply Meets.bind (keeps (.consult (live e)))
    intro _
    apply Meets.bind (keeps (.consult (e.root v.readiness)))
    intro root
    apply Meets.bind (keeps .guard)
    intro _
    apply Meets.bind (M := fun t s => Ordered h s ∧ turnOf h v head root existing = .ok t)
    · exact .lift (fun _ _ held made => ⟨held,made⟩) fun _ held => held
    intro t
    refine .assume (fun _ held => held.2) fun made => ?_
    obtain ⟨fits,old,first⟩ := turnOf_fits made known
    apply Meets.bind ((keeps (.consult (freshHeads e head v.readiness))).pre fun _ held => held.1)
    intro _
    apply Meets.bind (keeps .fallible)
    intro _
    exact attemptPart_meets fits old first

/-- Whatever the calls for one task are and wherever they break off, each message of the
report goes out once at most, and only after the disk had the ones before it verified. -/
theorem delivery_ordered (h : Host) (e : TaskHost ρ) (r : ρ) (events : List (Option DeliveryInput × List Fate)) :
    ((deliveryRun h e r events).sends.map Sent.part).Nodup ∧ ∀ x ∈ (deliveryRun h e r events).sends, x.InOrder h.hash := by
  have ordered : Ordered h (deliveryRun h e r events) := by
    apply play_keeps run_meets
    · exact fun s held => held.grown rfl (.refl s.slot)
    · exact ordered_unsent rfl
  exact ⟨ordered.once,ordered.inOrder⟩

end Calls

end Neurobro.History
