import Neurobro.Delivery.Outbox

/-! What a run does to the world it is run against: any world, and the trace of what was
asked of it. -/
namespace Neurobro.Pilot

open Durable Script

/-- A store, a transport, a switch and a signal, each with any behaviour. A store may throw
with the record kept, may break off for good, and a switch that throws gives nothing. -/
structure World (σ : Type) where
  random : σ → String × σ
  reserve : PilotRecord → Script σ Unit
  append : PilotRecord → Script σ Unit
  aborted : σ → Bool × σ
  killSwitchEngaged : σ → Option Bool × σ
  sendOnce : PilotSend → σ → Settled (Option Int) × σ
  readExact : String → Int → σ → Settled (Option PilotReadback) × σ

/-- What was asked of the store and the transport, with the answers. -/
inductive Event where
  | stored (record : PilotRecord) (kept : Bool)
  | sent (send : PilotSend) (outcome : Settled (Option Int))
  | read (chatId : String) (messageId : Int) (outcome : Settled (Option PilotReadback))

abbrev Traced (σ : Type) := σ × List Event

section Ports
variable {σ : Type} (w : World σ)

/-- The signal, or else the switch. -/
def World.stopped (s : σ) : Bool × σ :=
  if (w.aborted s).1 then w.aborted s
  else ((w.killSwitchEngaged (w.aborted s).2).1 != some false,(w.killSwitchEngaged (w.aborted s).2).2)

/-- A question whose answer leaves its mark on the trace. -/
def ask {α : Type} (f : σ → α × σ) (mark : α → List Event) : Script (Traced σ) α := do
  let s ← look id
  note fun s => ((f s.1).2,s.2 ++ mark (f s.1).1)
  return (f s.1).1

def mark (event : Event) : Script (Traced σ) Unit := note fun s => (s.1,s.2 ++ [event])

/-- A call of the store, with how it ended. -/
def keep (put : Script σ Unit) (record : PilotRecord) : Script (Traced σ) Unit :=
  rescue (do
    zoom Prod.fst (fun s whole => (s,whole.2)) put
    mark (.stored record true)) fun e => do
      mark (.stored record false)
      Script.throw e

def World.ports : Ports (Traced σ) where
  random := ask w.random fun _ => []
  reserve record := keep (w.reserve record) record
  append record := keep (w.append record) record
  stopped := ask w.stopped fun _ => []
  aborted := ask w.aborted fun _ => []
  sendOnce send := ask (w.sendOnce send) fun outcome => [.sent send outcome]
  readExact chatId messageId := ask (w.readExact chatId messageId) fun outcome => [.read chatId messageId outcome]

end Ports

/-- A run against a world: how it ended and what it asked for. -/
def runIn {σ : Type} (h : Host) (w : World σ) (input : Option PilotReplyInput) (fates : List Fate) (s : σ) :
    Outcome PilotResult × List Event :=
  ((runPilotReply h w.ports input fates (s,[])).1,(runPilotReply h w.ports input fates (s,[])).2.2.2)

/-! The shape of a trace. -/

/-- An approved reply and what is the same in all its records. -/
structure Attempt where
  approved : Approved
  reply : PilotReply
  base : PilotIdentity

/-- The attempt is that of the input. -/
def Attempt.Of (h : Host) (t : Attempt) (input : Option PilotReplyInput) : Prop :=
  ∃ i randomId, input = some i ∧ t.approved = i.approved ∧ snapshotReply h i.reply = some t.reply ∧
    acceptable t.approved t.reply = true ∧ t.base = identityOf h t.approved t.reply randomId

def Attempt.planned (t : Attempt) (kept : Bool) : Event := .stored (t.base.record .planned) kept

def Attempt.sending (t : Attempt) (kept : Bool) : Event := .stored (t.base.record .sending) kept

def Attempt.send (t : Attempt) : PilotSend := { t.reply with randomId := t.base.randomId }

/-- What follows the sending record. -/
inductive Closing (h : Host) (t : Attempt) : PilotResult → List Event → Prop where
  | late (kept : Bool) (result : PilotResult) (state : result.state = if kept then .failedTerminal else .unknown) :
      Closing h t result [.stored (t.base.record .failedTerminal) kept]
  | unsent (kept : Bool) (result : PilotResult) (state : result.state = .unknown) :
      Closing h t result [.stored (t.base.record .unknown) kept]
  | refused (tag : Option TaskSendDiagnostic) (kept : Bool) (result : PilotResult)
      (state : result.state = if kept then .failedTerminal else .unknown) :
      Closing h t result [.sent t.send (.rejected true tag),.stored (t.base.record .failedTerminal) kept]
  | lost (outcome : Settled (Option Int)) (kept : Bool) (result : PilotResult) (state : result.state = .unknown) :
      Closing h t result [.sent t.send outcome,.stored (t.base.record .unknown) kept]
  | unlike (sentId : Int) (outcome : Settled (Option PilotReadback)) (kept : Bool) (result : PilotResult)
      (state : result.state = .unknown) :
      Closing h t result [.sent t.send (.resolved (some sentId)),.read t.base.chatId sentId outcome,
        .stored (t.base.record .unknown) kept]
  | alike (sentId : Int) (raw r : PilotReadback) (kept : Bool) (result : PilotResult)
      (shape : snapshotReadback h raw = some r) (same : matched h t.approved t.base t.reply sentId r = true)
      (state : result.state = if kept then .verified else .unknown) :
      Closing h t result [.sent t.send (.resolved (some sentId)),.read t.base.chatId sentId (.resolved (some raw)),
        .stored (t.base.verified sentId (detachedBy t.approved t.base r)) kept]

/-- Every trace of a run that ends. -/
inductive Conforms (h : Host) (input : Option PilotReplyInput) : PilotResult → List Event → Prop where
  | refused (result : PilotResult) (state : result.state = .refused) : Conforms h input result []
  | unreserved (t : Attempt) (of : t.Of h input) (result : PilotResult) (state : result.state = .refused) :
      Conforms h input result [t.planned false]
  | early (t : Attempt) (of : t.Of h input) (kept : Bool) (result : PilotResult)
      (state : result.state = if kept then .failedTerminal else .unknown) :
      Conforms h input result [t.planned true,.stored (t.base.record .failedTerminal) kept]
  | unmarked (t : Attempt) (of : t.Of h input) (result : PilotResult) (state : result.state = .unknown) :
      Conforms h input result [t.planned true,t.sending false]
  | marked (t : Attempt) (of : t.Of h input) (result : PilotResult) (events : List Event) (closing : Closing h t result events) :
      Conforms h input result (t.planned true :: t.sending true :: events)

/-! How the trace grows. -/

/-- The trace so far. -/
def At {σ : Type} (trace : List Event) (s : Traced σ) : Prop := s.2 = trace

/-- The script adds events to the trace that its result goes with; one that breaks off has
added the first of them. -/
def Yields {σ α : Type} (trace : List Event) (m : Script (Traced σ) α) (D : α → List Event → Prop) : Prop :=
  Meets (At trace) m (fun a s => ∃ events, s.2 = trace ++ events ∧ D a events)
    fun s => ∃ a events, s.2 <+: trace ++ events ∧ D a events

namespace Yields

variable {σ α β : Type} {trace : List Event} {D : α → List Event → Prop}

theorem pure (h : D a []) : Yields trace (Pure.pure a : Script (Traced σ) α) D :=
  Meets.pure fun s is_ => ⟨[],by rw [List.append_nil]; exact is_,h⟩

/-- Some trace there is. -/
theorem exists_trace {m : Script (Traced σ) α} (h : Yields trace m D) (s : σ) : ∃ a events, D a events := by
  have ended := h [] (s,trace) rfl
  cases outcome : (m [] (s,trace)).1 <;> rw [outcome] at ended
  · obtain ⟨events,_,is_⟩ := ended
    exact ⟨_,events,is_⟩
  · obtain ⟨a,events,_,is_⟩ := ended
    exact ⟨a,events,is_⟩
  · obtain ⟨a,events,_,is_⟩ := ended
    exact ⟨a,events,is_⟩

/-- What comes later in the trace, told from an earlier point. -/
theorem later {early : List Event}
    (h : Yields (trace ++ early) m fun a events => D a (early ++ events)) :
    Meets (At (trace ++ early)) m (fun a s => ∃ events, s.2 = trace ++ events ∧ D a events)
      fun s => ∃ a events, s.2 <+: trace ++ events ∧ D a events := by
  apply Meets.weaken h
  · exact fun _ is_ => is_
  · rintro a s ⟨events,is_,d⟩
    exact ⟨early ++ events,by rw [is_,List.append_assoc],d⟩
  · rintro s ⟨a,events,is_,d⟩
    exact ⟨a,early ++ events,by rw [← List.append_assoc]; exact is_,d⟩

theorem ask {k : β → Script (Traced σ) α} (f : σ → β × σ) (mark : β → List Event)
    (next : ∀ b, Yields (trace ++ mark b) (k b) fun a events => D a (mark b ++ events)) :
    Yields trace (Pilot.ask f mark >>= k) D := by
  apply Meets.bind (M := fun b => At (trace ++ mark b))
  · intro fates s is_
    have grown : s.2 ++ mark (f s.1).1 = trace ++ mark (f s.1).1 := by rw [is_]
    exact grown
  · exact fun b => later (next b)

theorem silent {k : β → Script (Traced σ) α} (f : σ → β × σ) (next : ∀ b, Yields trace (k b) D) :
    Yields trace ((Pilot.ask f fun _ => []) >>= k) D := by
  apply ask
  intro b
  rw [List.append_nil]
  exact next b

/-- How a call of the store ends, as a value. -/
theorem keep_ends (put : Script σ Unit) (record : PilotRecord) (fates : List Fate) (s : Traced σ) :
    (∃ kept fates' s',rescue (do
      keep put record
      return true) (fun _ => return false) fates s = (.value kept,fates',s',s.2 ++ [.stored record kept])) ∨
    ∃ fates' s',rescue (do
      keep put record
      return true) (fun _ => return false) fates s = (.crashed,fates',s',s.2) := by
  obtain ⟨outcome,fates',s',ran⟩ : ∃ outcome fates' s', put fates s.1 = (outcome,fates',s') := ⟨_,_,_,rfl⟩
  cases outcome with
  | value u =>
    left
    refine ⟨true,fates',s',?_⟩
    simp [rescue,keep,zoom,mark,Bind.bind,Script.bind,note,Pure.pure,Script.pure,ran]
  | threw e =>
    left
    refine ⟨false,fates',s',?_⟩
    simp [rescue,keep,zoom,mark,Bind.bind,Script.bind,note,Pure.pure,Script.pure,Script.throw,ran]
  | crashed =>
    right
    refine ⟨fates',s',?_⟩
    simp [rescue,keep,zoom,Bind.bind,Script.bind,ran]

theorem keep (put : Script σ Unit) (record : PilotRecord)
    (next : ∀ kept, Yields (trace ++ [.stored record kept]) (k kept) fun a events => D a (.stored record kept :: events)) :
    Yields trace (rescue (do
      Pilot.keep put record
      return true) (fun _ => return false) >>= k) D := by
  apply Meets.bind (M := fun kept => At (trace ++ [.stored record kept]))
  · intro fates s is_
    obtain ⟨kept,fates',s',ran⟩ | ⟨fates',s',ran⟩ := keep_ends put record fates s
    · rw [ran]
      simp only [Ends,At]
      rw [is_]
    · rw [ran]
      obtain ⟨a,events,d⟩ := (next true).exists_trace s.1
      refine ⟨a,_,?_,d⟩
      simp only
      rw [is_]
      exact List.prefix_append _ _
  · exact fun kept => later (next kept)

theorem ite {p : Prop} [Decidable p] {m m' : Script (Traced σ) α} (yes : Yields trace m D) (no : Yields trace m' D) :
    Yields trace (if p then m else m') D :=
  Meets.ite (fun _ => yes) fun _ => no

end Yields

/-! The run conforms. -/

section Running
variable {σ : Type} {h : Host} {w : World σ} {trace : List Event} {D : PilotResult → List Event → Prop}

/-- The last record of an attempt. -/
theorem yields_close (record : PilotRecord) (good bad : PilotResult)
    (d : ∀ kept, D (if kept then good else bad) [.stored record kept]) :
    Yields trace (persist w.ports record >>= fun kept => if kept then pure good else pure bad) D := by
  apply Yields.keep
  intro kept
  cases kept with
  | true => exact .pure (d true)
  | false => exact .pure (d false)

theorem failBefore_yields (base : PilotIdentity)
    (d : ∀ kept result, result.state = (if kept then .failedTerminal else .unknown) →
      D result [.stored (base.record .failedTerminal) kept]) : Yields trace (failBefore w.ports base) D := by
  apply yields_close
  intro kept
  apply d
  cases kept <;> rfl

theorem failRefused_yields (base : PilotIdentity)
    (d : ∀ kept result, result.state = (if kept then .failedTerminal else .unknown) →
      D result [.stored (base.record .failedTerminal) kept]) : Yields trace (failRefused w.ports base) D := by
  apply yields_close
  intro kept
  apply d
  cases kept <;> rfl

theorem endUnknown_yields (base : PilotIdentity) (diagnostic : DeliveryDiagnostic)
    (d : ∀ kept result, result.state = .unknown → D result [.stored (base.record .unknown) kept]) :
    Yields trace (endUnknown w.ports base diagnostic) D := by
  apply yields_close
  intro kept
  apply d
  cases kept <;> rfl

theorem endVerified_yields (base : PilotIdentity) (sentId : Int) (detached : Bool)
    (d : ∀ kept result, result.state = (if kept then .verified else .unknown) →
      D result [.stored (base.verified sentId detached) kept]) : Yields trace (endVerified w.ports base sentId detached) D := by
  apply yields_close
  intro kept
  apply d
  cases kept <;> rfl

variable {t : Attempt}

theorem judge_yields (sentId : Int) (raw : Option PilotReadback)
    (d : ∀ result events, Closing h t result (.sent t.send (.resolved (some sentId)) ::
      .read t.base.chatId sentId (.resolved raw) :: events) → D result events) :
    Yields trace (judge h w.ports t.approved t.base t.reply sentId raw) D := by
  unfold judge
  split
  · exact endUnknown_yields _ _ fun kept result state => d _ _ (.unlike sentId _ kept result state)
  · rename_i r shape
    obtain ⟨raw',rfl,shaped⟩ := Option.bind_eq_some_iff.mp shape
    split
    · rename_i same
      exact endVerified_yields _ _ _ fun kept result state => d _ _ (.alike sentId raw' r kept result shaped same state)
    · exact endUnknown_yields _ _ fun kept result state => d _ _ (.unlike sentId _ kept result state)

/-- The signal is looked at twice before a call is made. -/
theorem untilAborted_yields {α : Type} {m : Script (Traced σ) (Settled α)}
    {k : Settled α → Script (Traced σ) PilotResult} (broken : Yields trace (k .aborted) D) (made : Yields trace (m >>= k) D) :
    Yields trace (untilAborted w.ports m >>= k) D := by
  unfold untilAborted
  rw [bind_assoc]
  apply Yields.silent
  intro first
  cases first with
  | true => exact broken
  | false =>
    rw [if_neg Bool.false_ne_true,bind_assoc]
    apply Yields.silent
    intro second
    cases second with
    | true => exact broken
    | false => exact made

theorem readBack_yields (sentId : Int)
    (d : ∀ result events, Closing h t result (.sent t.send (.resolved (some sentId)) :: events) → D result events) :
    Yields trace (readBack h w.ports t.approved t.base t.reply sentId) D := by
  unfold readBack
  apply untilAborted_yields
  · exact endUnknown_yields _ _ fun kept result state => d _ _ (.lost _ kept result state)
  refine Yields.ask (w.readExact t.base.chatId sentId) (fun outcome => [.read t.base.chatId sentId outcome]) fun outcome => ?_
  cases outcome with
  | resolved raw => exact judge_yields sentId raw fun result events closing => d _ _ closing
  | rejected preDispatch tag => exact endUnknown_yields _ _ fun kept result state => d _ _ (.unlike sentId _ kept result state)
  | aborted => exact endUnknown_yields _ _ fun kept result state => d _ _ (.unlike sentId _ kept result state)

theorem dispatch_yields (d : ∀ result events, Closing h t result events → D result events) :
    Yields trace (dispatch h w.ports t.approved t.base t.reply) D := by
  unfold dispatch
  apply untilAborted_yields
  · exact endUnknown_yields _ _ fun kept result state => d _ _ (.unsent kept result state)
  unfold sendUnlessStopped
  rw [bind_assoc]
  apply Yields.silent
  intro stopped
  cases stopped with
  | true => exact endUnknown_yields _ _ fun kept result state => d _ _ (.unsent kept result state)
  | false =>
    refine Yields.ask (w.sendOnce t.send) (fun outcome => [.sent t.send outcome]) fun outcome => ?_
    cases outcome with
    | aborted => exact endUnknown_yields _ _ fun kept result state => d _ _ (.lost _ kept result state)
    | rejected preDispatch tag =>
      cases preDispatch with
      | true => exact failRefused_yields _ fun kept result state => d _ _ (.refused tag kept result state)
      | false => exact endUnknown_yields _ _ fun kept result state => d _ _ (.lost _ kept result state)
    | resolved answer =>
      cases answer with
      | none => exact endUnknown_yields _ _ fun kept result state => d _ _ (.lost _ kept result state)
      | some sentId =>
        apply Yields.ite
        · exact readBack_yields sentId fun result events closing => d _ _ closing
        · exact endUnknown_yields _ _ fun kept result state => d _ _ (.lost _ kept result state)

theorem attemptReply_yields {input : Option PilotReplyInput} (of : t.Of h input)
    (d : ∀ result events, Conforms h input result (t.planned true :: events) → D result events) :
    Yields trace (attemptReply h w.ports t.approved t.base t.reply) D := by
  apply Yields.silent
  intro first
  cases first with
  | true => exact failBefore_yields _ fun kept result state => d _ _ (.early t of kept result state)
  | false =>
    apply Yields.keep
    intro kept
    cases kept with
    | false => exact .pure (d _ _ (.unmarked t of _ rfl))
    | true =>
      apply Yields.silent
      intro second
      cases second with
      | true => exact failBefore_yields _ fun kept result state => d _ _ (.marked t of _ _ (.late kept result state))
      | false => exact dispatch_yields fun result events closing => d _ _ (.marked t of _ _ closing)

/-- Every run conforms, and one that breaks off has done the first part of one that does. -/
theorem runPilotReply_yields (input : Option PilotReplyInput) :
    Yields trace (runPilotReply h w.ports input) (Conforms h input) := by
  unfold runPilotReply
  split
  · exact .pure (.refused _ rfl)
  rename_i a reply read
  obtain ⟨i,given,shaped⟩ := Option.bind_eq_some_iff.mp read
  obtain ⟨copied,shape,same⟩ := Option.map_eq_some_iff.mp shaped
  cases same
  by_cases fits : acceptable i.approved reply = true
  · rw [if_pos fits]
    apply Yields.silent
    intro stopped
    cases stopped with
    | true => exact .pure (.refused _ rfl)
    | false =>
      apply Yields.silent
      intro randomId
      obtain ⟨t,approved,same,made⟩ : ∃ t : Attempt, t.approved = i.approved ∧ t.reply = reply ∧
          t.base = identityOf h i.approved reply randomId := ⟨⟨_,_,_⟩,rfl,rfl,rfl⟩
      have of : t.Of h input := ⟨i,randomId,given,approved,by rw [same]; exact shape,by rw [approved,same]; exact fits,
        by rw [made,approved,same]⟩
      rw [← made,← approved,← same]
      apply Yields.keep
      intro kept
      cases kept with
      | true => exact attemptReply_yields of fun _ _ conforms => conforms
      | false => exact .pure (.unreserved _ of _ rfl)
  · rw [if_neg fits]
    exact .pure (.refused _ rfl)

end Running

end Neurobro.Pilot
