import Neurobro.Delivery.Conduct
import Neurobro.Delivery.Store

/-! The contract of a reply: what every world sees of it, and what the sealed store keeps
of it. -/
namespace Neurobro.Pilot

open Durable Script List

/-! What the trace of a run tells. -/

def Event.isSent : Event → Bool
  | .sent _ _ => true
  | _ => false

def Event.keptState : Event → Option PilotState
  | .stored record true => some record.state
  | _ => none

/-- The states that were stored, in order. -/
def keptStates (events : List Event) : List PilotState := events.filterMap Event.keptState

theorem keptStates_last (record : PilotRecord) (kept : Bool) : keptStates [.stored record kept] <+: [record.state] := by
  cases kept with
  | true => exact prefix_rfl
  | false => exact nil_prefix

/-- What was read back is what was planned, word for word. -/
structure ReadBackExactly (h : Host) (t : Attempt) (sentId : Int) (r : PilotReadback) : Prop where
  message : r.messageId = sentId
  chat : r.chatId = t.approved.chatId
  account : r.accountId = t.approved.accountId
  text : r.text = t.reply.text
  entities : formatting h r.entities = formatting h t.reply.entities
  anchor : exactAnchor t.base r = true ∨ detachedBy t.approved t.base r = true

/-- The contract of one run. -/
structure Contract (h : Host) (input : Option PilotReplyInput) (outcome : Outcome PilotResult) (events : List Event) : Prop where
  once : (events.filter Event.isSent).length ≤ 1
  recorded : ∀ before send answer after, events = before ++ .sent send answer :: after →
    ∃ t : Attempt, t.Of h input ∧ before = [t.planned true,t.sending true] ∧ send = t.send
  failed : ∀ result, outcome = .value result → result.state = .failedTerminal →
    ∀ send answer, .sent send answer ∈ events → ∃ tag, answer = .rejected true tag
  verified : ∀ result, outcome = .value result → result.state = .verified →
    ∃ (t : Attempt) (sentId : Int) (raw r : PilotReadback), t.Of h input ∧ .sent t.send (.resolved (some sentId)) ∈ events ∧
      .read t.approved.chatId sentId (.resolved (some raw)) ∈ events ∧ snapshotReadback h raw = some r ∧
      ReadBackExactly h t sentId r ∧ .stored (t.base.verified sentId (detachedBy t.approved t.base r)) true ∈ events
  moves : ∃ last : PilotState, last.terminal = true ∧
    (keptStates events <+: [.planned,.sending,last] ∨ keptStates events <+: [.planned,.failedTerminal])

section Trace
variable {h : Host} {input : Option PilotReplyInput} {t : Attempt} {result : PilotResult} {events : List Event}

theorem of_base (of : t.Of h input) : t.base.chatId = t.approved.chatId ∧ t.base.accountId = t.approved.accountId := by
  obtain ⟨i,randomId,_,_,_,_,made⟩ := of
  rw [made]
  exact ⟨rfl,rfl⟩

theorem matched_exactly (of : t.Of h input)
    (same : matched h t.approved t.base t.reply sentId r = true) : ReadBackExactly h t sentId r := by
  obtain ⟨chat,account⟩ := of_base of
  unfold matched at same
  simp only [Bool.and_eq_true,decide_eq_true_eq,Bool.or_eq_true] at same
  obtain ⟨⟨⟨⟨⟨message,inChat⟩,byAccount⟩,anchor⟩,text⟩,entities⟩ := same
  exact ⟨message,by rw [inChat,chat],by rw [byAccount,account],text,entities,anchor⟩

/-- One send at most, and before anything else. -/
inductive SentFirst (t : Attempt) : List Event → Prop where
  | never (events : List Event) (silent : ∀ e ∈ events, e.isSent = false) : SentFirst t events
  | once (answer : Settled (Option Int)) (rest : List Event) (silent : ∀ e ∈ rest, e.isSent = false) :
      SentFirst t (.sent t.send answer :: rest)

theorem closing_sentFirst (closing : Closing h t result events) : SentFirst t events := by
  cases closing with
  | late | unsent => exact .never _ (by simp [Event.isSent])
  | refused | lost | unlike | alike => exact .once _ _ (by simp [Event.isSent])

theorem silent_filter (silent : ∀ e ∈ events, e.isSent = false) : events.filter Event.isSent = [] := by
  rw [filter_eq_nil_iff]
  intro e member
  rw [silent e member]
  exact Bool.false_ne_true

theorem sentFirst_length (first : SentFirst t events) : (events.filter Event.isSent).length ≤ 1 := by
  cases first with
  | never events silent => rw [silent_filter silent]; exact Nat.zero_le 1
  | once answer rest silent => rw [filter_cons_of_pos rfl,silent_filter silent]; exact le_refl 1

/-- A send of such a trace comes after whatever silent events it is put behind, and no others. -/
theorem sentFirst_split (first : SentFirst t events) (early : List Event) (silent : ∀ e ∈ early, e.isSent = false)
    {before after : List Event} {send : PilotSend} {answer : Settled (Option Int)}
    (is_ : early ++ events = before ++ .sent send answer :: after) : before = early ∧ send = t.send := by
  induction early generalizing before with
  | cons e rest ih =>
    cases before with
    | nil =>
      have loud := silent e mem_cons_self
      rw [cons_append] at is_
      rw [(List.cons.inj is_).1] at loud
      cases loud
    | cons e' before =>
      rw [cons_append,cons_append] at is_
      obtain ⟨same,rest_⟩ := List.cons.inj is_
      obtain ⟨same',sends⟩ := ih (fun e member => silent e (mem_cons_of_mem _ member)) rest_
      exact ⟨by rw [same,same'],sends⟩
  | nil =>
    rw [nil_append] at is_
    cases first with
    | never events silent =>
      have loud := silent (.sent send answer) (by rw [is_]; simp)
      cases loud
    | once answer' rest silent =>
      cases before with
      | nil =>
        rw [nil_append] at is_
        cases (List.cons.inj is_).1
        exact ⟨rfl,rfl⟩
      | cons e before =>
        have loud := silent (.sent send answer) (by rw [(List.cons.inj is_).2]; simp)
        cases loud

/-- What holds of a trace and of every first part of it. -/
structure Sends (h : Host) (input : Option PilotReplyInput) (events : List Event) : Prop where
  once : (events.filter Event.isSent).length ≤ 1
  recorded : ∀ before send answer after, events = before ++ .sent send answer :: after →
    ∃ t : Attempt, t.Of h input ∧ before = [t.planned true,t.sending true] ∧ send = t.send
  moves : ∃ last : PilotState, last.terminal = true ∧
    (keptStates events <+: [.planned,.sending,last] ∨ keptStates events <+: [.planned,.failedTerminal])

theorem Sends.first {part : List Event} (whole : Sends h input events) (of : part <+: events) : Sends h input part := by
  obtain ⟨rest,rfl⟩ := of
  refine ⟨?_,?_,?_⟩
  · apply le_trans _ whole.once
    rw [filter_append,length_append]
    exact Nat.le_add_right _ _
  · intro before send answer after is_
    exact whole.recorded before send answer (after ++ rest) (by rw [is_,append_assoc]; rfl)
  · obtain ⟨last,ends,moves⟩ := whole.moves
    have grows : keptStates part <+: keptStates (part ++ rest) := by
      unfold keptStates
      rw [filterMap_append]
      exact prefix_append _ _
    exact ⟨last,ends,moves.imp grows.trans grows.trans⟩

theorem silent_sends (silent : ∀ e ∈ events, e.isSent = false)
    (moves : keptStates events <+: [.planned,.failedTerminal]) : Sends h input events := by
  refine ⟨by rw [silent_filter silent]; exact Nat.zero_le 1,fun before send answer after is_ => ?_,.failedTerminal,rfl,.inr moves⟩
  have loud := silent (.sent send answer) (by rw [is_]; simp)
  cases loud

/-- The state that follows the sending record. -/
theorem closing_states (closing : Closing h t result events) :
    ∃ last : PilotState, last.terminal = true ∧ keptStates events <+: [last] := by
  cases closing with
  | late kept => exact ⟨_,rfl,keptStates_last (t.base.record .failedTerminal) kept⟩
  | unsent kept => exact ⟨_,rfl,keptStates_last (t.base.record .unknown) kept⟩
  | refused tag kept => exact ⟨_,rfl,keptStates_last (t.base.record .failedTerminal) kept⟩
  | lost outcome kept => exact ⟨_,rfl,keptStates_last (t.base.record .unknown) kept⟩
  | unlike sentId outcome kept => exact ⟨_,rfl,keptStates_last (t.base.record .unknown) kept⟩
  | alike sentId raw r kept => exact ⟨_,rfl,keptStates_last (t.base.verified sentId (detachedBy t.approved t.base r)) kept⟩

theorem conforms_sends (conforms : Conforms h input result events) : Sends h input events := by
  cases conforms with
  | refused => exact silent_sends (by simp) nil_prefix
  | unreserved t of => exact silent_sends (by simp [Attempt.planned,Event.isSent]) nil_prefix
  | early t of kept =>
    apply silent_sends
    · simp [Attempt.planned,Event.isSent]
    · exact (prefix_append_right_inj [PilotState.planned]).mpr (keptStates_last (t.base.record .failedTerminal) kept)
  | unmarked t of =>
    apply silent_sends
    · simp [Attempt.planned,Attempt.sending,Event.isSent]
    · exact prefix_append [PilotState.planned] [.failedTerminal]
  | marked t of result events closing =>
    have first := closing_sentFirst closing
    obtain ⟨last,ends,states⟩ := closing_states closing
    have early : ∀ e ∈ [t.planned true,t.sending true], e.isSent = false := by simp [Attempt.planned,Attempt.sending,Event.isSent]
    have quiet : (t.planned true :: t.sending true :: events).filter Event.isSent = events.filter Event.isSent := rfl
    refine ⟨by rw [quiet]; exact sentFirst_length first,fun before send answer after is_ => ?_,last,ends,.inl ?_⟩
    · obtain ⟨same,sends⟩ := sentFirst_split first [t.planned true,t.sending true] early is_
      exact ⟨t,of,same,sends⟩
    · exact (prefix_append_right_inj [PilotState.planned,.sending]).mpr states

/-- A failed attempt sent nothing, or was promised so. -/
theorem conforms_failed (conforms : Conforms h input result events) (failed : result.state = .failedTerminal)
    {send : PilotSend} {answer : Settled (Option Int)} (sent : .sent send answer ∈ events) :
    ∃ tag, answer = .rejected true tag := by
  cases conforms with
  | refused => cases sent
  | unreserved t of => simp [Attempt.planned] at sent
  | early t of kept => simp [Attempt.planned] at sent
  | unmarked t of => simp [Attempt.planned,Attempt.sending] at sent
  | marked t of result events closing =>
    cases closing with
    | late kept => simp [Attempt.planned,Attempt.sending] at sent
    | unsent kept => simp [Attempt.planned,Attempt.sending] at sent
    | refused tag kept =>
      simp [Attempt.planned,Attempt.sending] at sent
      exact ⟨tag,sent.2⟩
    | lost outcome kept result state => rw [state] at failed; cases failed
    | unlike sentId outcome kept result state => rw [state] at failed; cases failed
    | alike sentId raw r kept result shape same state =>
      rw [state] at failed
      cases kept <;> cases failed

/-- A verified reply was read back exactly, and its record was stored. -/
theorem conforms_verified (conforms : Conforms h input result events) (verified : result.state = .verified) :
    ∃ (t : Attempt) (sentId : Int) (raw r : PilotReadback), t.Of h input ∧ .sent t.send (.resolved (some sentId)) ∈ events ∧
      .read t.approved.chatId sentId (.resolved (some raw)) ∈ events ∧ snapshotReadback h raw = some r ∧
      ReadBackExactly h t sentId r ∧ .stored (t.base.verified sentId (detachedBy t.approved t.base r)) true ∈ events := by
  cases conforms with
  | refused result state => rw [state] at verified; cases verified
  | unreserved t of result state => rw [state] at verified; cases verified
  | early t of kept result state =>
    rw [state] at verified
    cases kept <;> cases verified
  | unmarked t of result state => rw [state] at verified; cases verified
  | marked t of result events closing =>
    cases closing with
    | late kept result state =>
      rw [state] at verified
      cases kept <;> cases verified
    | unsent kept result state => rw [state] at verified; cases verified
    | refused tag kept result state =>
      rw [state] at verified
      cases kept <;> cases verified
    | lost outcome kept result state => rw [state] at verified; cases verified
    | unlike sentId outcome kept result state => rw [state] at verified; cases verified
    | alike sentId raw r kept result shape same state =>
      have stored : kept = true := by
        rw [state] at verified
        cases kept with
        | true => rfl
        | false => cases verified
      refine ⟨t,sentId,raw,r,of,by simp,?_,shape,matched_exactly of same,by simp [stored]⟩
      rw [← (of_base of).1]
      simp

end Trace

theorem runIn_contract {σ : Type} (h : Host) (w : World σ) (input : Option PilotReplyInput) (fates : List Fate) (s : σ) :
    Contract h input (runIn h w input fates s).1 (runIn h w input fates s).2 := by
  have yields : Yields [] (runPilotReply h w.ports input) (Conforms h input) := runPilotReply_yields input
  have ended := yields fates (s,[]) rfl
  unfold runIn
  generalize runPilotReply h w.ports input fates (s,[]) = run at ended
  obtain ⟨outcome,fates',s',events⟩ := run
  have broken : ∀ result whole, events <+: [] ++ whole → Conforms h input result whole → (∀ a, outcome ≠ .value a) →
      Contract h input outcome events := by
    intro result whole part conforms no
    have sends := (conforms_sends conforms).first part
    exact ⟨sends.once,sends.recorded,fun _ is_ => absurd is_ (no _),fun _ is_ => absurd is_ (no _),sends.moves⟩
  cases outcome with
  | value result =>
    obtain ⟨whole,is_,conforms⟩ := ended
    cases is_
    have sends := conforms_sends conforms
    refine ⟨sends.once,sends.recorded,?_,?_,sends.moves⟩
    · intro _ is_ failed send answer sent
      cases is_
      exact conforms_failed conforms failed sent
    · intro _ is_ verified
      cases is_
      exact conforms_verified conforms verified
  | threw e =>
    obtain ⟨result,whole,part,conforms⟩ := ended
    exact broken result whole part conforms fun _ no => by cases no
  | crashed =>
    obtain ⟨result,whole,part,conforms⟩ := ended
    exact broken result whole part conforms fun _ no => by cases no

/-! The sealed store under a run. -/

/-- Everything around a run but the store. -/
structure Surroundings (ρ : Type) where
  random : ρ → String × ρ
  aborted : ρ → Bool × ρ
  killSwitchEngaged : ρ → Option Bool × ρ
  sendOnce : PilotSend → ρ → Settled (Option Int) × ρ
  readExact : String → Int → ρ → Settled (Option PilotReadback) × ρ

def aside {ρ α : Type} (f : ρ → α × ρ) (s : Vault × ρ) : α × Vault × ρ := ((f s.2).1,s.1,(f s.2).2)

def inVault {ρ : Type} (m : Script Vault Unit) : Script (Vault × ρ) Unit := zoom Prod.fst (fun v s => (v,s.2)) m

/-- The surroundings, with the sealed store for a store. -/
def Surroundings.world {ρ : Type} (e : Surroundings ρ) : World (Vault × ρ) where
  random := aside e.random
  reserve record := inVault (operation record true)
  append record := inVault (operation record false)
  aborted := aside e.aborted
  killSwitchEngaged := aside e.killSwitchEngaged
  sendOnce send := aside (e.sendOnce send)
  readExact chatId messageId := aside (e.readExact chatId messageId)

/-- Each of the ports keeps an invariant. -/
structure Ports.Keep {σ : Type} (ports : Ports σ) (I : σ → Prop) : Prop where
  random : Meets I ports.random (fun _ => I) I
  reserve : ∀ record, Meets I (ports.reserve record) (fun _ => I) I
  append : ∀ record, Meets I (ports.append record) (fun _ => I) I
  stopped : Meets I ports.stopped (fun _ => I) I
  aborted : Meets I ports.aborted (fun _ => I) I
  sendOnce : ∀ send, Meets I (ports.sendOnce send) (fun _ => I) I
  readExact : ∀ chatId messageId, Meets I (ports.readExact chatId messageId) (fun _ => I) I

section Keep
variable {σ : Type} {h : Host} {ports : Ports σ} {I : σ → Prop}

theorem persist_keeps (keep : ports.Keep I) (record : PilotRecord) : Meets I (persist ports record) (fun _ => I) I := by
  apply Meets.rescue
  · apply Meets.bind (keep.append record)
    intro _
    exact .pure fun _ held => held
  · intro _
    exact .pure fun _ held => held

theorem close_keeps (keep : ports.Keep I) (record : PilotRecord) (good bad : PilotResult) :
    Meets I (persist ports record >>= fun kept => if kept then pure good else pure bad) (fun _ => I) I := by
  apply Meets.bind (persist_keeps keep record)
  intro kept
  exact .ite (fun _ => .pure fun _ held => held) fun _ => .pure fun _ held => held

theorem untilAborted_keeps {α : Type} (keep : ports.Keep I) {m : Script σ (Settled α)} (call : Meets I m (fun _ => I) I) :
    Meets I (untilAborted ports m) (fun _ => I) I := by
  apply Meets.bind keep.aborted
  intro first
  apply Meets.ite
  · exact fun _ => .pure fun _ held => held
  intro _
  apply Meets.bind keep.aborted
  intro second
  exact .ite (fun _ => .pure fun _ held => held) fun _ => call

theorem readBack_keeps (keep : ports.Keep I) (a : Approved) (base : PilotIdentity) (reply : PilotReply) (sentId : Int) :
    Meets I (readBack h ports a base reply sentId) (fun _ => I) I := by
  apply Meets.bind (untilAborted_keeps keep (keep.readExact _ _))
  intro received
  cases received with
  | resolved raw =>
    simp only [judge]
    split
    · exact close_keeps keep _ _ _
    · exact .ite (fun _ => close_keeps keep _ _ _) fun _ => close_keeps keep _ _ _
  | rejected preDispatch tag => exact close_keeps keep _ _ _
  | aborted => exact close_keeps keep _ _ _

theorem dispatch_keeps (keep : ports.Keep I) (a : Approved) (base : PilotIdentity) (reply : PilotReply) :
    Meets I (dispatch h ports a base reply) (fun _ => I) I := by
  have send : Meets I (sendUnlessStopped ports { reply with randomId := base.randomId }) (fun _ => I) I := by
    apply Meets.bind keep.stopped
    intro stopped
    exact .ite (fun _ => .pure fun _ held => held) fun _ => keep.sendOnce _
  apply Meets.bind (untilAborted_keeps keep send)
  intro outcome
  cases outcome with
  | aborted => exact close_keeps keep _ _ _
  | rejected preDispatch tag => exact .ite (fun _ => close_keeps keep _ _ _) fun _ => close_keeps keep _ _ _
  | resolved answer =>
    cases answer with
    | none => exact close_keeps keep _ _ _
    | some sentId => exact .ite (fun _ => readBack_keeps keep _ _ _ _) fun _ => close_keeps keep _ _ _

/-- What every port keeps, a run keeps. -/
theorem runPilotReply_keeps (keep : ports.Keep I) (input : Option PilotReplyInput) :
    Meets I (runPilotReply h ports input) (fun _ => I) I := by
  unfold runPilotReply
  split
  · exact .pure fun _ held => held
  apply Meets.ite
  · intro _
    apply Meets.bind keep.stopped
    intro stopped
    apply Meets.ite
    · exact fun _ => .pure fun _ held => held
    intro _
    apply Meets.bind keep.random
    intro randomId
    apply Meets.bind (M := fun _ => I)
    · apply Meets.rescue
      · apply Meets.bind (keep.reserve _)
        intro _
        exact .pure fun _ held => held
      · intro _
        exact .pure fun _ held => held
    intro reserved
    apply Meets.ite
    · intro _
      apply Meets.bind keep.stopped
      intro first
      apply Meets.ite
      · exact fun _ => close_keeps keep _ _ _
      intro _
      apply Meets.bind (persist_keeps keep _)
      intro kept
      apply Meets.ite
      · intro _
        apply Meets.bind keep.stopped
        intro second
        exact .ite (fun _ => close_keeps keep _ _ _) fun _ => dispatch_keeps keep _ _ _
      · exact fun _ => .pure fun _ held => held
    · exact fun _ => .pure fun _ held => held
  · exact fun _ => .pure fun _ held => held

end Keep

section Vaults
variable {ρ : Type} {e : Surroundings ρ}

/-- Every record the trace says was kept is on the disk, whole. -/
def Kept (s : Traced (Vault × ρ)) : Prop :=
  s.1.1.Valid ∧ ∀ r, .stored r true ∈ s.2 → ∃ f, s.1.1.folder = some f ∧ f.slot r.state = .whole r

theorem ask_keeps {α : Type} (f : Vault × ρ → α × Vault × ρ) (mark : α → List Event) (same : ∀ s, (f s).2.1 = s.1)
    (quiet : ∀ a r, .stored r true ∉ mark a) : Meets Kept (ask f mark) (fun _ => Kept) Kept := by
  intro fates s held
  obtain ⟨valid,kept⟩ := held
  have is_ : (f s.1).2.1 = s.1.1 := same s.1
  refine ⟨is_ ▸ valid,fun r member => ?_⟩
  obtain member | member := mem_append.mp member
  · obtain ⟨g,there,whole⟩ := kept r member
    exact ⟨g,(congrArg Vault.folder is_).trans there,whole⟩
  · exact absurd member (quiet _ r)

theorem stopped_same (s : Vault × ρ) : (e.world.stopped s).2.1 = s.1 := by
  unfold World.stopped
  split <;> rfl

/-- What was whole on the disk stays so, and the new record is. -/
theorem kept_later (held : Kept s) (valid : v.Valid)
    (later : Later s.1.1.folder v.folder) (more : List Event)
    (stored : ∀ r, .stored r true ∈ more → ∃ f, v.folder = some f ∧ f.slot r.state = .whole r) :
    Kept ((v,r),s.2 ++ more) := by
  refine ⟨valid,fun record member => ?_⟩
  obtain member | member := mem_append.mp member
  · obtain ⟨f,there,whole⟩ := held.2 record member
    obtain ⟨g,there',grows⟩ := later f there
    exact ⟨g,there',(grows record.state).2 record whole⟩
  · exact stored record member

theorem keep_kept (record : PilotRecord) (reserve : Bool) :
    Meets Kept (keep (inVault (operation record reserve) : Script (Vault × ρ) Unit) record) (fun _ => Kept) Kept := by
  intro fates s held
  have ended := operation_meets record reserve s.1.1 held.1 fates s.1.1 rfl
  obtain ⟨outcome,fates',v,ran⟩ : ∃ outcome fates' v, operation record reserve fates s.1.1 = (outcome,fates',v) := ⟨_,_,_,rfl⟩
  rw [ran] at ended
  cases outcome with
  | value u =>
    obtain ⟨valid,later,there⟩ := ended
    have goes : keep (inVault (operation record reserve) : Script (Vault × ρ) Unit) record fates s =
        (.value (),fates',(v,s.1.2),s.2 ++ [.stored record true]) := by
      simp [keep,rescue,inVault,zoom,mark,Bind.bind,Script.bind,note,ran]
    rw [goes]
    apply kept_later held valid later
    intro r member
    cases mem_singleton.mp member
    exact there
  | threw message =>
    obtain ⟨valid,later⟩ := ended
    have goes : keep (inVault (operation record reserve) : Script (Vault × ρ) Unit) record fates s =
        (.threw message,fates',(v,s.1.2),s.2 ++ [.stored record false]) := by
      simp [keep,rescue,inVault,zoom,mark,Bind.bind,Script.bind,note,Script.throw,ran]
    rw [goes]
    apply kept_later held valid later
    intro r member
    cases mem_singleton.mp member
  | crashed =>
    obtain ⟨valid,later⟩ := ended
    have goes : keep (inVault (operation record reserve) : Script (Vault × ρ) Unit) record fates s =
        (.crashed,fates',(v,s.1.2),s.2) := by
      simp [keep,rescue,inVault,zoom,Bind.bind,Script.bind,ran]
    rw [goes]
    have kept := kept_later (r := s.1.2) held valid later [] fun r no => by cases no
    rw [append_nil] at kept
    exact kept

theorem world_keeps : e.world.ports.Keep Kept := by
  refine ⟨?_,fun record => keep_kept record true,fun record => keep_kept record false,?_,?_,fun send => ?_,fun chatId messageId => ?_⟩
  · exact ask_keeps _ _ (fun _ => rfl) fun _ _ no => by cases no
  · exact ask_keeps _ _ stopped_same fun _ _ no => by cases no
  · exact ask_keeps _ _ (fun _ => rfl) fun _ _ no => by cases no
  · exact ask_keeps _ _ (fun _ => rfl) fun _ _ no => by simp at no
  · exact ask_keeps _ _ (fun _ => rfl) fun _ _ no => by simp at no

end Vaults

/-- The disk after a run against the sealed store. -/
def diskAfter {ρ : Type} (h : Host) (e : Surroundings ρ) (input : Option PilotReplyInput) (fates : List Fate) (v : Vault)
    (r : ρ) : Option Folder :=
  (runPilotReply h e.world.ports input fates ((v,r),[])).2.2.1.1.folder

/-- The dispatch contract: for every world; for the sealed store, whose disk has every record
that was kept; and for the disk itself, under any calls of the store. -/
theorem reply_contract (h : Host) (input : Option PilotReplyInput) (fates : List Fate) :
    (∀ (σ : Type) (w : World σ) (s : σ), Contract h input (runIn h w input fates s).1 (runIn h w input fates s).2) ∧
    (∀ (ρ : Type) (e : Surroundings ρ) (events : List (StoreCall × List Fate)) (r : ρ) (record : PilotRecord),
      .stored record true ∈ (runIn h e.world input fates (storeRun events,r)).2 →
      ∃ f, diskAfter h e input fates (storeRun events) r = some f ∧ f.slot record.state = .whole record) ∧
    (∀ (ρ : Type) (e : Surroundings ρ) (events : List (StoreCall × List Fate)) (r : ρ) (f : Folder),
      diskAfter h e input fates (storeRun events) r = some f → f.Ordered) ∧
    ∀ events more : List (StoreCall × List Fate),
      (∀ f, (storeRun events).folder = some f → f.Ordered) ∧ Later (storeRun events).folder (storeRun (events ++ more)).folder := by
  have reached : ∀ (ρ : Type) (e : Surroundings ρ) (events : List (StoreCall × List Fate)) (r : ρ),
      Kept (runPilotReply h e.world.ports input fates ((storeRun events,r),[])).2.2 := by
    intro ρ e events r
    have ended := runPilotReply_keeps (h := h) (world_keeps (e := e)) input fates ((storeRun events,r),[])
      ⟨storeRun_valid events,fun _ no => by cases no⟩
    cases outcome : (runPilotReply h e.world.ports input fates ((storeRun events,r),[])).1 <;> rw [outcome] at ended <;> exact ended
  refine ⟨fun σ w s => runIn_contract h w input fates s,?_,?_,?_⟩
  · exact fun ρ e events r record stored => (reached ρ e events r).2 record stored
  · exact fun ρ e events r f there => (reached ρ e events r).1.ordered f there
  · exact fun events more => ⟨(storeRun_valid events).ordered,storeRun_later events more⟩

/-! A stop right after the reservation ends the attempt without a sending record. -/

def plainHost : Host where
  hash text := text
  render _ := ""
  copyEntities _ entities := some entities

/-- The switch is engaged from the second time on that it is asked. -/
def stopsLate : World Nat where
  random s := ("1",s)
  reserve _ := pure ()
  append _ := pure ()
  aborted s := (false,s)
  killSwitchEngaged s := (some (decide (0 < s)),s + 1)
  sendOnce _ s := (.resolved none,s)
  readExact _ _ s := (.resolved none,s)

def greeting : PilotReplyInput where
  approved := { chatId := "-5",accountId := "7",replyToMessageId := none,maximumTextBytes := 100 }
  reply := { chatId := "-5",replyToMessageId := none,text := "hi" }

theorem stopped_states : keptStates (runIn plainHost stopsLate (some greeting) [] 0).2 = [.planned,.failedTerminal] := by
  decide +kernel

/-- So the records do not always go through the sending one. -/
theorem not_always_sending : ¬∀ (σ : Type) (h : Host) (w : World σ) (input : Option PilotReplyInput) (fates : List Fate) (s : σ),
    ∃ last : PilotState, keptStates (runIn h w input fates s).2 <+: [.planned,.sending,last] := by
  intro always
  obtain ⟨last,moves⟩ := always Nat plainHost stopsLate (some greeting) [] 0
  rw [stopped_states] at moves
  have second := (cons_prefix_cons.mp moves).2
  cases (cons_prefix_cons.mp second).1

end Neurobro.Pilot
