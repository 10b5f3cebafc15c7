import Neurobro.Agent.OperationsConduct
import Neurobro.Agent.Origin

/-! Public drafts: once the owner has spoken in the chat a task would answer in, nothing is
sent there for the task until the owner names a public route again. -/
namespace Neurobro.Agent

open Coop

variable {o : Options} {T : TaskId} {P : PeerId}

/-- No committed correction of the task reopens a public route. -/
def Unopened (T : TaskId) (cmd : Cmd) (c : Instant o) : Prop :=
  ∀ request, cmd = .correctTask request → request.taskId = T →
    (∃ corrected, (exec o (.correctTask request) c.state).1 = .ok corrected) → ¬request.reopens o

/-- What the handling of owner speech can withdraw: a draft of a task that came from this
very chat and whose grant is in force, or one withdrawn by other speech before. -/
def Withdrawable (o : Options) (s : State) (obs : Observation) (T : TaskId) (intent : TaskIntent) : Prop :=
  (∃ grant, Draft o s obs T intent grant) ∨
    ∃ review, s.store.originReview.get T = some review ∧ review.ref ≠ obs.ref

theorem change_shut (change : Change (discipline o) (Unopened T) c c') (shut : Shut T P c.state) : Shut T P c'.state:= by
  cases change with
  | act i cmd orderly may unopened => exact exec_shut orderly.authority may.1 shut unopened
  | call | reply | crash => exact ⟨shut.task,shut.reviewed,shut.dated⟩
  | shock x => cases x <;> exact ⟨shut.task,shut.reviewed,shut.dated⟩

/-- Speech that has been handled leaves the public chat shut. -/
theorem handled_shut (reachable : Reachable o w)
    {result : IngestResult} (about : w.about = some (i,.note (.handled obs result)))
    (speech : Speech o w.core.state obs) (task : w.core.state.store.tasks.get T = some intent)
    (routed : intent.route.peerId = obs.ref.peerId) (public' : intent.route.peerId ≠ o.privateRoute.peerId)
    (withdrawable : Withdrawable o w.core.state obs T intent) : Shut T obs.ref.peerId w.core.state := by
  have reviewed : Reviewed o obs w.core.state := (reachable.governed.about about).2
  obtain ⟨deadline,dated,peer⟩ := reachable.orderly.authority.route T intent task public'
  refine ⟨Option.isSome_of_eq_some task,?_,deadline,dated,peer.trans (congrArg some routed)⟩
  rcases withdrawable with ⟨grant,draft⟩ | ⟨review,found,_⟩
  · exact reviewed speech T intent grant draft
  · exact Option.isSome_of_eq_some found

/-- A shut chat is refused to every send. -/
theorem Shut.refused (shut : Shut T P s) (public' : P ≠ o.privateRoute.peerId)
    (named : intent.id = T) (send : isSend capability) : s.originResourceAllowed o intent capability P = false := by
  obtain ⟨deadline,dated,peer⟩ := shut.dated
  obtain ⟨review,reviewed⟩ := Option.isSome_iff_exists.mp shut.reviewed
  simp [State.originResourceAllowed,send,public',named,dated,peer,reviewed]

/-- After the owner has spoken in the chat of a public draft, no run sends it there before a
correction by the owner reopens the route. -/
theorem draft_withdrawn {w w' : World (agent o)} (reachable : Reachable o w) {i : Nat} {obs : Observation}
    {result : IngestResult} (about : w.about = some (i,.note (.handled obs result)))
    (speech : Speech o w.core.state obs) {intent : TaskIntent} (task : w.core.state.store.tasks.get T = some intent)
    (routed : intent.route.peerId = obs.ref.peerId) (public' : intent.route.peerId ≠ o.privateRoute.peerId)
    (withdrawable : Withdrawable o w.core.state obs T intent)
    (run : World.LeadsIf (body o) (Unopened T) w w') {j : Nat} {effect : Effect} {token : Token}
    (calling : w'.calling = some (j,.dispatch effect token)) :
    ¬(effect.taskId = T ∧ isSend effect.capability ∧ effect.resource = obs.ref.peerId) := by
  rintro ⟨rfl,send,resource⟩
  have shut := handled_shut reachable about speech task routed public' withdrawable
  have kept : Shut effect.taskId obs.ref.peerId w'.core.state :=
    (reachable.changes run).keeps (fun _ _ => change_shut) shut
  have later := reachable.leads run.leads
  obtain ⟨_,current,_,_,_,held,_,_,_,_,_,_,_,allowed⟩ := (later.governed.calling calling).2.2.current
  have named := (later.orderly.authority.task _ current held.1).1
  rw [resource,kept.refused (routed ▸ public') named send] at allowed
  cases allowed

/-! ## A draft from elsewhere -/

/-- Ordinary speech in the chat `P`, on the point of having been handled. -/
def speaking (P : PeerId) (w : World (agent .plain)) : Bool :=
  match w.about with
  | some (_,.note (.handled obs _)) =>
    obs.ref.peerId = P && obs.kind = .message && (obs.sentAt.isSome && obs.observedAt.isSome) &&
      authenticate .plain obs && (w.core.state.ownOutput .plain obs).isNone &&
      ((afterPrefix id "/бро" (authoredText obs false)).isNone && obs.replyTo.isNone)
  | _ => false

theorem speaking_speech (held : speaking P w) : ∃ i obs result,
    w.about = some (i,.note (.handled obs result)) ∧ obs.ref.peerId = P ∧ Speech .plain w.core.state obs := by
  unfold speaking at held
  split at held
  · rename_i i obs result about
    simp only [Bool.and_eq_true,decide_eq_true_eq,Option.isNone_iff_eq_none] at held
    obtain ⟨⟨⟨⟨⟨peer,kind⟩,stamped⟩,authentic⟩,notOwn⟩,noCommand,noReply⟩ := held
    exact ⟨i,obs,result,about,peer,kind,stamped,authentic,notOwn,.inr ⟨noCommand,rfl,by simp [noReply],
      by simp [noReply]⟩⟩
  · cases held

def sending (P : PeerId) (w : World (agent .plain)) : Bool :=
  match w.calling with
  | some (_,.dispatch effect _) => effect.taskId = .uuid 0 && isSend effect.capability && effect.resource = P
  | _ => false

theorem sending_calling (held : sending P w) : ∃ j effect token,
    w.calling = some (j,.dispatch effect token) ∧
      effect.taskId = .uuid 0 ∧ isSend effect.capability ∧ effect.resource = P := by
  unfold sending at held
  split at held
  · rename_i j effect token calling
    simp only [Bool.and_eq_true,decide_eq_true_eq] at held
    exact ⟨j,effect,token,calling,held.1.1,held.1.2,held.2⟩
  · cases held

/-- The history since another one holds no correction. -/
def uncorrected : Event (agent o) → Bool
  | .act _ (Cmd.correctTask _) _ => false
  | _ => true

theorem uncorrected_unopened (i : Nat) (cmd : Cmd) (r : cmd.Result) (c : Instant o)
    (held : uncorrected (o := o) (.act i cmd r)) : Unopened T cmd c := by
  rintro request rfl
  cases held

def since (w w' : World (agent o)) : List (Event (agent o)) :=
  w'.core.trace.take (w'.core.trace.length - w.core.trace.length)

theorem unopened_leads (run : World.Leads (body o) w w')
    (clear : (since w w').all uncorrected) : World.LeadsIf (body o) (Unopened T) w w' := by
  obtain ⟨later,grown⟩ := run.trace
  have new : since w w' = later := by simp [since,← grown]
  exact run.harmless_since uncorrected_unopened grown (new ▸ clear)

/-- A task given in the private chat is sent to a public one; there the owner speaks. -/
def rerouted : List (Choice (agent .plain) Op) :=
  [.invoke (.ingest (spoken "10" "a" "/бро x")),.resume 1 capable,.resume 0 (answered .running),
    .invoke (.correct (.uuid 0) "y" (some { peerId := "7" })),.resume 2 (answered .cancelled),
    .resume 2 (answered .running),.invoke (.ingest (spoken "7" "b" "hello"))]

/-- The loop over drafts looks for tasks that came from the chat, and the answer still goes out. -/
theorem draft_dispatched : ¬∀ (o : Options) (w w' : World (agent o)) (T : TaskId) (i : Nat) (obs : Observation)
    (result : IngestResult) (intent : TaskIntent), Reachable o w → w.about = some (i,.note (.handled obs result)) →
      Speech o w.core.state obs → w.core.state.store.tasks.get T = some intent →
      intent.route.peerId = obs.ref.peerId → intent.route.peerId ≠ o.privateRoute.peerId →
      World.LeadsIf (body o) (Unopened T) w w' → ∀ j effect token, w'.calling = some (j,.dispatch effect token) →
        ¬(effect.taskId = T ∧ isSend effect.capability ∧ effect.resource = obs.ref.peerId) := by
  intro withdrawn
  have played : (play rerouted boot 12).any fun w => (speaking "7" w &&
      (w.core.state.store.tasks.get (.uuid 0)).any fun intent => intent.route.peerId = "7") &&
      (play [.run,.invoke (.issueExecutionContext ⟨.uuid 0,2,3,2,"run"⟩),
        .invoke (.executeEffect 5 ⟨none,"telegram.send","7",.obj []⟩)] w 8).any fun w' =>
          sending "7" w' && (since w w').all uncorrected := by decide +kernel
  obtain ⟨w,reached,held⟩ := play_any played
  obtain ⟨before,played⟩ := Bool.and_eq_true_iff.mp held
  obtain ⟨speaks,routed⟩ := Bool.and_eq_true_iff.mp before
  obtain ⟨w',run,after⟩ := play_any played
  obtain ⟨sends,clear⟩ := Bool.and_eq_true_iff.mp after
  obtain ⟨i,obs,result,about,peer,speech⟩ := speaking_speech speaks
  obtain ⟨intent,task,route⟩ := (Option.any_eq_true _ _).mp routed
  obtain ⟨j,effect,token,calling,named,send,resource⟩ := sending_calling sends
  have route : intent.route.peerId = "7" := of_decide_eq_true route
  exact withdrawn .plain w w' (.uuid 0) i obs result intent (boot_reachable.leads reached) about speech task
    (route.trans peer.symm) (by rw [route]; decide) (unopened_leads run clear) j effect token calling
    ⟨named,send,resource.trans peer.symm⟩

/-- The task is answered where it was given; there the owner speaks. -/
def answeredHere : List (Choice (agent .plain) Op) :=
  [.invoke (.ingest (spoken "7" "a" "/бро --here x")),.resume 1 capable,.resume 0 (answered .running),
    .invoke (.ingest (spoken "7" "b" "hello"))]

/-- A draft of the task that the speech withdraws. -/
def drafting (w : World (agent .plain)) : Bool :=
  match w.about with
  | some (_,.note (.handled obs _)) =>
    (w.core.state.store.tasks.get (.uuid 0)).any fun intent =>
      intent.route.peerId = "7" && intent.source.peerId = obs.ref.peerId && !sameRef intent.source obs.ref &&
        !beginsWithQuotedCommand obs.authorityTextRanges obs.text "/бро" &&
        (w.core.state.store.grants.get intent.grantId).any (·.revokedAt.isNone)
  | _ => false

theorem drafting_draft (held : drafting w)
    {result : IngestResult} (about : w.about = some (i,.note (.handled obs result))) : ∃ intent,
      w.core.state.store.tasks.get (.uuid 0) = some intent ∧ intent.route.peerId = "7" ∧
        Withdrawable .plain w.core.state obs (.uuid 0) intent := by
  unfold drafting at held
  simp only [about] at held
  obtain ⟨intent,task,held⟩ := (Option.any_eq_true _ _).mp held
  simp only [Bool.and_eq_true,decide_eq_true_eq,Bool.not_eq_true',Option.any_eq_true,
    Option.isNone_iff_eq_none] at held
  obtain ⟨⟨⟨⟨route,source⟩,other⟩,unquoted⟩,grant,granted,live⟩ := held
  have public' : intent.route.peerId ≠ Options.plain.privateRoute.peerId := by rw [route]; decide
  exact ⟨intent,task,route,.inl ⟨grant,unquoted,⟨task,granted⟩,source,public',other,live⟩⟩

/-- What is dispatched next goes elsewhere. -/
theorem draft_withdrawn_reply : ∃ (w' : World (agent .plain)) (j : Nat) (effect : Effect) (token : Token),
    w'.calling = some (j,.dispatch effect token) ∧
      ¬(effect.taskId = .uuid 0 ∧ isSend effect.capability ∧ effect.resource = "7") := by
  have played : (play answeredHere boot 16).any fun w => (speaking "7" w && drafting w) &&
      (play [.run,.invoke (.journalControlReply (spoken "7" "c" "") "b" none)] w 14).any fun w' =>
        (w'.calling.any fun call => call.2.isDispatch) && (since w w').all uncorrected := by decide +kernel
  obtain ⟨w,reached,held⟩ := play_any played
  obtain ⟨before,played⟩ := Bool.and_eq_true_iff.mp held
  obtain ⟨speaks,drafts⟩ := Bool.and_eq_true_iff.mp before
  obtain ⟨w',run,after⟩ := play_any played
  obtain ⟨calls,clear⟩ := Bool.and_eq_true_iff.mp after
  obtain ⟨i,obs,result,about,peer,speech⟩ := speaking_speech speaks
  obtain ⟨intent,task,route,withdrawable⟩ := drafting_draft drafts about
  obtain ⟨⟨j,call⟩,calling,dispatches⟩ := (Option.any_eq_true _ _).mp calls
  cases call with
  | dispatch effect token =>
    exact ⟨w',j,effect,token,calling,peer ▸ draft_withdrawn (boot_reachable.leads reached) about speech task
      (route.trans peer.symm) (by rw [route]; decide) withdrawable (unopened_leads run clear) calling⟩
  | _ => cases dispatches

end Neurobro.Agent
