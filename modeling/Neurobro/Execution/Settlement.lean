import Neurobro.Execution.Quarantine

/-! How the calls of the adapter end: each comes to one outcome, and to none without effect
while a child of its own may have been at work. -/
namespace Neurobro.Runner.Sidecar

/-! ## What a step does to its call and to the others -/

@[simp] def Event.call : Event → Nat
  | .invoke c | .refuse c _ | .spawn c _ | .deadline c | .fixtureDeadline c | .graceEnds c _ | .stdoutData c _
  | .stderrData c _ | .error c _ | .close c _ | .closeAgain c | .evidence c _ | .leave c => c

/-- Steps that the call takes by itself: its waits end, its timers run out. -/
def Event.own : Event → Bool
  | .refuse _ _ | .spawn _ _ | .deadline _ | .graceEnds _ _ | .evidence _ _ | .leave _ => true
  | _ => false

/-- How many steps of its own a call has before it at most. -/
def Call.rank (call : Call) : Nat :=
  match call.phase with
  | .idle => 7
  | .verifying => 6
  | .running =>
    3 + (if call.direct.terminationTrigger = none then 1 else 0) + (if call.direct.deadlineTimer then 1 else 0)
  | .reading _ => 2
  | .leaving _ => 1
  | .settled _ => 0

/-- What a step does to the call that it is about. -/
structure Moves (call call' : Call) (event : Event) : Prop where
  starts : call'.child.started = call.child.started ∨ event = .spawn event.call .started
  rank : call'.rank ≤ call.rank
  own : event.own = true → call'.rank < call.rank
  settled : ∀ outcome, call.phase = .settled outcome → call'.phase = .settled outcome

theorem Moves.same {call call' : Call} {event : Event} (own : event.own = false) (phase : call'.phase = call.phase)
    (child : call'.child.started = call.child.started) (timer : call'.direct.deadlineTimer = call.direct.deadlineTimer)
    (trigger : call'.direct.terminationTrigger = none → call.direct.terminationTrigger = none) : Moves call call' event := by
  refine ⟨.inl child,?_,by simp [own],fun outcome is_ => by rw [phase,is_]⟩
  simp only [Call.rank,phase,timer]
  split <;> simp
  by_cases none_ : call'.direct.terminationTrigger = none
  · simp [none_,trigger none_]
  · simp [none_]

theorem Call.requestTermination_direct (call : Call) (trigger : Trigger) :
    (call.requestTermination trigger).direct.deadlineTimer = call.direct.deadlineTimer ∧
      ((call.requestTermination trigger).direct.terminationTrigger = none → call.direct.terminationTrigger = none) := by
  simp only [Call.requestTermination]
  split
  · exact ⟨rfl,id⟩
  · exact ⟨rfl,by simp⟩

theorem Moves.terminates (call : Call) (trigger : Trigger) {event : Event} (own : event.own = false) :
    Moves call (call.requestTermination trigger) event := by
  obtain ⟨phase,child,_,_⟩ := Call.requestTermination_same call trigger
  obtain ⟨timer,none_⟩ := Call.requestTermination_direct call trigger
  exact .same own phase (congrArg _ child) timer none_

/-- One call moves, and the others stay as they are. -/
structure Adapter.Moves (w w' : Adapter) (event : Event) : Prop where
  others : ∀ j, j ≠ event.call → w'.calls j = w.calls j
  call : Sidecar.Moves (w.calls event.call) (w'.calls event.call) event

theorem Adapter.Moves.put {w w' : Adapter} {event : Event} {call : Call} (calls : w'.calls = (w.put event.call call).calls)
    (moves : Sidecar.Moves (w.calls event.call) call event) : w.Moves w' event := by
  refine ⟨fun j other => ?_,?_⟩
  · rw [calls]
    exact if_neg other
  · rw [calls]
    simpa [Adapter.put] using moves

theorem Adapter.Moves.none {w : Adapter} {event : Event} (own : event.own = false) : w.Moves w event :=
  ⟨fun _ _ => rfl,.same own rfl rfl rfl id⟩

/-- A step forward of a call that has not settled. -/
theorem Moves.forward {call call' : Call} {event : Event} (child : call'.child.started = call.child.started)
    (less : call'.rank < call.rank) (open_ : ∀ outcome, call.phase ≠ .settled outcome) : Moves call call' event :=
  ⟨.inl child,Nat.le_of_lt less,fun _ => less,fun outcome is_ => absurd is_ (open_ outcome)⟩

theorem Moves.deadline {call : Call} (sound : call.Sound) (timer : call.direct.deadlineTimer = true) {event : Event} :
    Moves call call.deadline event := by
  have running := sound.timers (.inl timer)
  refine .forward ?_ ?_ (by simp [running])
  · simp only [Call.deadline,Call.requestTermination]
    split <;> rfl
  · simp only [Call.deadline,Call.requestTermination]
    split
    · simp [Call.rank,running,timer]
    · rename_i free
      simp only [not_or,Bool.not_eq_true,Option.isSome_eq_false_iff,Option.isNone_iff_eq_none] at free
      simp [Call.rank,running,timer,free.2]

theorem Moves.graceEnds {call : Call} (sound : call.Sound) (timer : call.direct.closeGraceTimer = true)
    (authority : Authority) (answer : Option Bool) {event : Event} : Moves call (call.graceEnds authority answer) event := by
  have running := sound.timers (.inr timer)
  obtain ⟨open_,child⟩ := sound.runs running
  obtain ⟨t,is_⟩ := Option.isSome_iff_exists.mp (sound.graced timer)
  refine .forward (by rw [(Call.graceEnds_same authority call answer).2.1]) ?_ (by simp [running])
  simp only [Call.graceEnds,Call.killed,Call.finishTermination,open_,is_,Bool.false_eq_true,reduceCtorEq,or_self,if_false]
  simp [Call.rank,running,is_]
  omega

theorem Moves.stdoutData (call : Call) (chunk : Bytes) {event : Event} (own : event.own = false) :
    Moves call (call.stdoutData chunk) event := by
  simp only [Call.stdoutData]
  split
  · exact .same own rfl rfl rfl id
  · split
    · obtain ⟨starts,rank,less,settled⟩ := Moves.terminates { call with direct := { call.direct with
        stdout := (call.direct.stdout ++ chunk).take sidecarStreamCap, stdoutTruncated := true } } .stdoutCap own
      exact ⟨starts,rank,less,settled⟩
    · exact .same own rfl rfl rfl id

theorem Moves.stderrData (call : Call) (chunk : Bytes) {event : Event} (own : event.own = false) :
    Moves call (call.stderrData chunk) event := by
  simp only [Call.stderrData]
  split
  · exact .same own rfl rfl rfl id
  · split
    · obtain ⟨starts,rank,less,settled⟩ := Moves.terminates { call with direct := { call.direct with
        stderr := (call.direct.stderr ++ chunk).take sidecarStreamCap, stderrTruncated := true } } .stderrCap own
      exact ⟨starts,rank,less,settled⟩
    · exact .same own rfl rfl rfl id

theorem Moves.error {call : Call} (sound : call.Sound) (child : call.lease.child = true) (error : String) {event : Event}
    (own : event.own = false) :
    Moves call (Call.error { call with child := { call.child with errored := true } } error) event := by
  simp only [Call.error]
  split
  · exact .same own rfl rfl rfl id
  · rename_i free
    simp only [not_or,Bool.not_eq_true] at free
    have running := sound.running child free.1
    refine .forward rfl ?_ (by simp [running])
    simp only [Call.settle,Call.rank,running]
    omega

theorem Moves.closes {call : Call} (sound : call.Sound) (child : call.lease.child = true) (authority : Authority)
    (code : Option Int32) {event : Event} (own : event.own = false) : Moves call (call.closes authority code) event := by
  simp only [Call.closes]
  split
  · exact .same own rfl rfl rfl id
  · rename_i open_
    split
    · exact .same own rfl rfl rfl id
    · have running := sound.running child (by simpa using open_)
      refine .forward rfl ?_ (by simp [running])
      simp only [Call.settle,Call.rank,running]
      omega

/-- A close that is told, whether it matches or not. -/
theorem Adapter.Inv.closes_moves {w : Adapter} (inv : w.Inv) {event : Event} (own : event.own = false)
    (closed : (w.calls event.call).child.closed = true) (authority : Authority) (code : Option Int32) :
    w.Moves (w.onChildClose authority event.call code) event := by
  simp only [Adapter.onChildClose,Adapter.observeMatchingChildClose]
  split
  · exact .none own
  · rename_i w₁ observed
    split at observed
    · contradiction
    · rename_i matching
      simp only [ne_eq,not_or,Classical.not_not,Bool.not_eq_false,Bool.not_eq_true] at matching
      obtain ⟨_,child,_,_⟩ := matching
      obtain ⟨starts,rank,less,settled⟩ := Moves.closes ((inv.sound event.call).observed child closed) child authority code own
      have moves : Sidecar.Moves (w.calls event.call) (Call.closes authority { w.calls event.call with
        lease := { (w.calls event.call).lease with matchingCloseObserved := true } } code) event := ⟨starts,rank,less,settled⟩
      cases observed
      refine .put ?_ moves
      funext j
      by_cases same : j = event.call
      · subst same
        simp [Adapter.put]
      · simp only [Adapter.put,if_neg same]

theorem Adapter.Inv.moves {w w' : Adapter} {event : Event} (inv : w.Inv)
    (took : w.step setting event = some w') : w.Moves w' event := by
  cases event with
  | invoke c =>
    simp only [Adapter.step,Adapter.invoke] at took
    split at took
    · rename_i idle
      split at took <;> cases took
      · exact .put rfl (.forward rfl (by simp [Call.rank,idle]) (by simp [idle]))
      · exact .put rfl (.forward rfl (by simp [Call.rank,idle]) (by simp [idle]))
    · contradiction
  | refuse c code =>
    simp only [Adapter.step,Adapter.refuse] at took
    split at took <;> cases took
    rename_i here
    exact .put rfl (.forward rfl (by simp [Call.rank,here]) (by simp [here]))
  | spawn c spawned =>
    simp only [Adapter.step,Adapter.spawn] at took
    split at took
    · rename_i here
      have bare := (inv.sound c).fresh (.inr here)
      split at took
      · cases took
        exact .put rfl (.forward rfl (by simp [Call.rank,here]) (by simp [here]))
      · split at took
        · cases took
          exact .put rfl (.forward rfl (by simp [Call.rank,here]) (by simp [here]))
        · cases took
          cases spawned with
          | thrown error => exact .put rfl (.forward rfl (by simp [Call.rank,here]) (by simp [here]))
          | refused =>
            refine .put rfl (.forward ?_ (by simp [Call.rank,here,bare.2.1]) (by simp [here]))
            simp [Event.call,bare.2.2]
          | started =>
            refine .put rfl ⟨.inr rfl,?_,fun _ => ?_,by simp [here,Event.call]⟩
            · simp [Call.rank,here,bare.2.1,Event.call]
            · simp [Call.rank,here,bare.2.1,Event.call]
    · contradiction
  | deadline c =>
    simp only [Adapter.step] at took
    split at took <;> cases took
    rename_i timer
    exact .put rfl (.deadline (inv.sound c) timer)
  | fixtureDeadline c =>
    simp only [Adapter.step] at took
    split at took <;> cases took
    exact .put rfl (.terminates _ _ rfl)
  | graceEnds c answer =>
    simp only [Adapter.step] at took
    split at took <;> cases took
    rename_i timer
    exact .put rfl (.graceEnds (inv.sound c) timer _ _)
  | stdoutData c chunk =>
    simp only [Adapter.step] at took
    split at took <;> cases took
    exact .put rfl (.stdoutData _ _ rfl)
  | stderrData c chunk =>
    simp only [Adapter.step] at took
    split at took <;> cases took
    exact .put rfl (.stderrData _ _ rfl)
  | error c error =>
    simp only [Adapter.step] at took
    split at took <;> cases took
    rename_i may
    simp only [Call.mayFail,Bool.and_eq_true] at may
    exact .put rfl (.error (inv.sound c) may.1.1 _ rfl)
  | close c code =>
    simp only [Adapter.step] at took
    split at took <;> cases took
    rename_i guard
    have closed := inv.within ((inv.sound c).process guard.1 { (w.calls c).child with closed := true } rfl (fun _ => rfl))
      (fun needs => needs.of (.inl rfl) rfl rfl) rfl
    have here : (w.put c { w.calls c with child := { (w.calls c).child with closed := true } }).calls c =
        { w.calls c with child := { (w.calls c).child with closed := true } } := if_pos rfl
    have moves : Adapter.Moves (w.put c { w.calls c with child := { (w.calls c).child with closed := true } }) _ (.close c code) :=
      closed.closes_moves rfl (by simp [Event.call,here]) (setting.authority c) code
    refine ⟨fun j other => (moves.others j other).trans (if_neg other),?_⟩
    · have call := moves.call
      simp only [Event.call,here] at call
      exact ⟨call.starts,call.rank,call.own,call.settled⟩
  | closeAgain c =>
    simp only [Adapter.step] at took
    split at took <;> cases took
    rename_i guard
    have closed : (w.calls (Event.closeAgain c).call).child.closed = true := guard.1
    exact inv.closes_moves rfl closed _ _
  | evidence c evidence =>
    simp only [Adapter.step] at took
    split at took <;> cases took
    rename_i raw here
    exact .put rfl (.forward rfl (by simp [Call.rank,here,Event.call]) (by simp [here,Event.call]))
  | leave c =>
    simp only [Adapter.step,Adapter.leave] at took
    split at took <;> cases took
    rename_i outcome here
    exact .put rfl (.forward rfl (by simp [Call.rank,here,Event.call]) (by simp [here,Event.call]))

/-! ## Calls over whole runs -/

/-- A step of its own is always open to a call that has been made and has not settled. -/
theorem Adapter.Inv.goes_on (setting : Setting) {w : Adapter} (inv : w.Inv) (made : (w.calls c).phase ≠ .idle)
    (open_ : ∀ outcome, (w.calls c).phase ≠ .settled outcome) :
    ∃ event w', event.own = true ∧ event.call = c ∧ w.step setting event = some w' := by
  cases here : (w.calls c).phase with
  | idle => exact absurd here made
  | verifying => exact ⟨.refuse c "",_,rfl,rfl,by simp [Adapter.step,Adapter.refuse,here]; rfl⟩
  | running =>
    have waits := (inv.sound c).waits here
    split at waits
    · exact ⟨.deadline c,_,rfl,rfl,by simp [Adapter.step,waits]; rfl⟩
    · exact ⟨.graceEnds c none,_,rfl,rfl,by simp [Adapter.step,waits]; rfl⟩
  | reading raw => exact ⟨.evidence c none,_,rfl,rfl,by simp [Adapter.step,here]; rfl⟩
  | leaving outcome => exact ⟨.leave c,_,rfl,rfl,by simp [Adapter.step,Adapter.leave,here]; rfl⟩
  | settled outcome => exact absurd here (open_ outcome)

theorem Leads.settled {w w' : Adapter} (inv : w.Inv) (run : Leads setting w w')
    {outcome : Outcome} (is_ : (w.calls c).phase = .settled outcome) : w'.Inv ∧ (w'.calls c).phase = .settled outcome := by
  induction run with
  | refl => exact ⟨inv,is_⟩
  | step before took ih =>
    rename_i w₁ w₂ event
    have moves := ih.1.moves took
    refine ⟨ih.1.step took,?_⟩
    by_cases about : c = event.call
    · subst about
      exact moves.call.settled outcome ih.2
    · rw [moves.others c about]
      exact ih.2

/-- A child that was started and has not been seen to close. -/
def Adapter.Unobserved (w : Adapter) (c : Nat) : Prop :=
  (w.calls c).child.started = true ∧ (w.calls c).lease.matchingCloseObserved = false

theorem Adapter.Inv.starts {w w' : Adapter} {event : Event} (inv : w.Inv)
    (took : w.step setting event = some w') (before : (w.calls c).child.started = false)
    (after : (w'.calls c).child.started = true) : event = .spawn c .started ∧ w.active = some c := by
  have moves := inv.moves took
  by_cases about : c = event.call
  · rcases moves.call.starts with same | is_
    · rw [← about,before,after] at same
      contradiction
    · rw [← about] at is_
      subst is_
      refine ⟨rfl,?_⟩
      simp only [Adapter.step,Adapter.spawn] at took
      split at took
      · exact inv.held c (.inl ‹_›)
      · contradiction
  · rw [moves.others c about,before] at after
    contradiction

/-- A close that is not that of the lease in force. -/
theorem Adapter.close_other {w w' : Adapter} {event : Event}
    (about : (∃ code, event = .close c code) ∨ event = .closeAgain c) (took : w.step setting event = some w')
    (active : w.active = some c') (other : c' ≠ c) : w'.active = some c' := by
  have unmatched (v : Adapter) (held : v.active = some c') (authority : Authority) (code : Option Int32) :
      v.onChildClose authority c code = v := by
    simp [Adapter.onChildClose,Adapter.observeMatchingChildClose,held,other]
  rcases about with ⟨code,rfl⟩ | rfl
  · simp only [Adapter.step] at took
    split at took <;> cases took
    rw [unmatched _ (by exact active)]
    exact active
  · simp only [Adapter.step] at took
    split at took <;> cases took
    rw [unmatched w active]
    exact active

/-- In every run: a close counts only for a child that closed; at most one started child has not been seen to close, and
none is started beside it; a close of another call leaves the lease where it is, and generations tell calls apart;
a call that was made goes on by itself in a bounded number of steps to one outcome, which stays; and that is
without effect only if no child was started for it or its own child told so. -/
theorem sidecar_quarantine (setting : Setting) (w : Adapter) (run : Leads setting {} w) :
    (∀ c, (w.calls c).lease.matchingCloseObserved = true → (w.calls c).child.closed = true) ∧
    (∀ c c', w.Unobserved c → w.Unobserved c' → c = c') ∧
    (∀ event w', w.step setting event = some w' → ∀ c, (w.calls c).child.started = false →
      (w'.calls c).child.started = true → ∀ c', ¬w.Unobserved c') ∧
    (∀ c c' g, (w.calls c).lease.generation = some g → (w.calls c').lease.generation = some g → c = c') ∧
    (∀ event w' c c', (∃ code, event = .close c code) ∨ event = .closeAgain c → w.step setting event = some w' →
      w.active = some c' → c' ≠ c → w'.active = some c') ∧
    (∀ c, (w.calls c).phase ≠ .idle → (∀ outcome, (w.calls c).phase ≠ .settled outcome) →
      ∃ event w', event.own = true ∧ event.call = c ∧ w.step setting event = some w') ∧
    (∀ event w', w.step setting event = some w' → ∀ c, (w'.calls c).rank ≤ (w.calls c).rank ∧
      (event.own = true → event.call = c → (w'.calls c).rank < (w.calls c).rank)) ∧
    (∀ c outcome, (w.calls c).phase = .settled outcome →
      (∀ w', Leads setting w w' → (w'.calls c).phase = .settled outcome) ∧
      (outcome.effect = .none → (w.calls c).child.started = false ∨
        ∃ evidence, outcome = .result evidence ∧ evidence.processStartCount = 0)) := by
  have inv := run.inv
  refine ⟨fun c => (inv.sound c).seen,fun c c' first second => ?_,fun event w' took c before after c' unseen => ?_,
    inv.distinct,fun event w' c c' about took active other => Adapter.close_other about took active other,
    fun c made open_ => inv.goes_on setting made open_,fun event w' took c => ?_,fun c outcome settled => ⟨?_,?_⟩⟩
  · have here := inv.held c (.inr (.inr first))
    have there := inv.held c' (.inr (.inr second))
    rw [here] at there
    exact Option.some.inj there
  · obtain ⟨_,active⟩ := inv.starts took before after
    have held := inv.held c' (.inr (.inr unseen))
    rw [active,Option.some.injEq] at held
    rw [← held] at unseen
    have started := unseen.1
    simp [before] at started
  · have moves := inv.moves took
    by_cases about : c = event.call
    · subst about
      exact ⟨moves.call.rank,fun own _ => moves.call.own own⟩
    · rw [moves.others c about]
      exact ⟨Nat.le_refl _,fun _ is_ => absurd is_.symm about⟩
  · exact fun w' later => (Leads.settled inv later settled).2
  · exact (inv.sound c).told outcome (by simp [settled,Phase.outcome])

def Adapter.play (setting : Setting) : List Event → Adapter → Option Adapter
  | [],w => some w
  | event :: rest,w => (w.step setting event).bind (play setting rest)

theorem Leads.play (events : List Event) (before : Leads setting w w')
    (took : w'.play setting events = some w'') : Leads setting w w'' := by
  induction events generalizing w' with
  | nil =>
    cases took
    exact before
  | cons event rest ih =>
    obtain ⟨next,taken,later⟩ := Option.bind_eq_some_iff.mp took
    exact ih (before.step taken) later

def sampleSetting : Setting := ⟨fun _ => {},fun _ => ⟨fun _ => none,fun _ => false,fun _ _ _ => false⟩⟩

/-- The first call ends with its child in quarantine; the second is refused; after the close a third starts its own. -/
def sampleEvents : List Event :=
  [.invoke 0,.spawn 0 .started,.deadline 0,.graceEnds 0 (some false),.leave 0,.invoke 1,.close 0 none,.invoke 2,
    .spawn 2 .started]

theorem sidecar_quarantine_sample : ∃ w, Leads sampleSetting {} w ∧ w.Unobserved 2 ∧ ¬w.Unobserved 0 ∧
    (w.calls 1).phase = .settled .concurrencyRefused ∧
    (∀ c c', w.Unobserved c → w.Unobserved c' → c = c') := by
  obtain ⟨w,took⟩ := Option.isSome_iff_exists.mp (show ((Adapter.play sampleSetting sampleEvents {}).isSome = true) from rfl)
  have read {α : Type} (f : Adapter → α) : some (f w) = (Adapter.play sampleSetting sampleEvents {}).map f := by rw [took]; rfl
  have run : Leads sampleSetting {} w := Leads.play sampleEvents .refl took
  have started := Option.some.inj (read fun w => (w.calls 2).child.started)
  have seen := Option.some.inj (read fun w => (w.calls 2).lease.matchingCloseObserved)
  have refused := Option.some.inj (read fun w => (w.calls 1).phase)
  have all := sidecar_quarantine sampleSetting w run
  have here : w.Unobserved 2 := ⟨started,seen⟩
  exact ⟨w,run,here,fun other => absurd (all.2.1 2 0 here other) (by decide),refused,all.2.1⟩

end Neurobro.Runner.Sidecar
