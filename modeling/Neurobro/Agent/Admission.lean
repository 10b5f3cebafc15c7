import Neurobro.Agent.OperationsConduct

/-! Submissions to the engine over whole runs: one for each revision of a task, and none
while an earlier revision may still be running. -/
namespace Neurobro.Agent

open Coop

variable {o : Options}

/-- However admissions race and wherever the process crashes. -/
theorem submitted_at_most_once {w : World (agent o)} (reachable : Reachable o w) (key : AdmissionKey) :
    w.core.AtMostOnce (submits key) := reachable.orderly.submittedOnce key

/-- The owner gives a task and corrects it while it runs; the engine ends the old run. -/
def corrected : List (Choice (agent .plain) Op) :=
  [.invoke (.ingest (spoken "7" "a" "/бро x")),.resume 1 capable,.resume 0 (answered .running),
    .invoke (.correct (.uuid 0) "y" none),.resume 2 (answered .cancelled)]

/-- Both revisions are submitted, each of them once. -/
theorem submitted_at_most_once_corrected : ∃ w : World (agent .plain),
    w.core.Happened (submits (.uuid 0,1) ·) ∧ w.core.Happened (submits (.uuid 0,2) ·) ∧
      w.core.AtMostOnce (submits (.uuid 0,1)) ∧ w.core.AtMostOnce (submits (.uuid 0,2)) := by
  have played : (play corrected boot).any fun w =>
      w.core.trace.any (submits (.uuid 0,1)) && w.core.trace.any (submits (.uuid 0,2)) := by decide +kernel
  obtain ⟨w,reached,held⟩ := play_any played
  obtain ⟨first,second⟩ := Bool.and_eq_true_iff.mp held
  have reachable := boot_reachable.leads reached
  exact ⟨w,List.any_eq_true.mp first,List.any_eq_true.mp second,submitted_at_most_once reachable _,
    submitted_at_most_once reachable _⟩

/-- When a revision is submitted, every earlier one that was admitted is closed: blocked
and never submitted, or bound to a run the engine has reported as ended. -/
theorem submission_alone {w : World (agent o)} (reachable : Reachable o w) {i : Nat} {input : EngineInput}
    (calling : w.calling = some (i,.submit input)) {q : Nat} (older : q < input.intentRevision)
    (admitted : ∃ j, w.core.Happened (reserves j (input.taskId,q))) : Closed (input.taskId,q) w.core := by
  obtain ⟨j,reserved⟩ := admitted
  exact (reachable.governed.calling calling).2.2.1.closed q older (reachable.orderly.reserved j _ reserved)

def submitting (key : AdmissionKey) (w : World (agent .plain)) : Bool :=
  match w.calling with
  | some (_,.submit input) => (input.taskId,input.intentRevision) = key
  | _ => false

theorem submitting_calling {key : AdmissionKey} (held : submitting key w) :
    ∃ i input, w.calling = some (i,.submit input) ∧ input.taskId = key.1 ∧ input.intentRevision = key.2 := by
  unfold submitting at held
  split at held
  · rename_i i input calling
    have same := of_decide_eq_true held
    exact ⟨i,input,calling,congrArg Prod.fst same,congrArg Prod.snd same⟩
  · cases held

def reserved (key : AdmissionKey) : Event (agent .plain) → Bool
  | .act _ (Cmd.reserve a) won => a.admissionKey = key && won
  | _ => false

theorem reserved_reserves {key : AdmissionKey} {c : Instant .plain} (held : c.trace.any (reserved key)) :
    ∃ j, c.Happened (reserves j key) := by
  obtain ⟨event,member,holds⟩ := List.any_eq_true.mp held
  unfold reserved at holds
  split at holds
  · rename_i j a won
    obtain ⟨named,true'⟩ := Bool.and_eq_true_iff.mp holds
    exact ⟨j,_,member,rfl,of_decide_eq_true named,true'⟩
  · cases holds

/-- The correction is submitted after its first revision has ended. -/
theorem submission_alone_corrected : ∃ (w : World (agent .plain)) (i : Nat) (input : EngineInput),
    w.calling = some (i,.submit input) ∧ input.intentRevision = 2 ∧ Closed (input.taskId,1) w.core := by
  have played : (play corrected boot 27).any fun w =>
      submitting (.uuid 0,2) w && w.core.trace.any (reserved (.uuid 0,1)) := by decide +kernel
  obtain ⟨w,reached,held⟩ := play_any played
  obtain ⟨about,admitted⟩ := Bool.and_eq_true_iff.mp held
  obtain ⟨i,input,calling,task,revision⟩ := submitting_calling about
  obtain ⟨j,happened⟩ := reserved_reserves admitted
  exact ⟨w,i,input,calling,revision,submission_alone (boot_reachable.leads reached) calling
    (revision ▸ by decide) ⟨j,task ▸ happened⟩⟩

end Neurobro.Agent
