import Neurobro.Execution.Sidecar

/-! What all runs of the adapter keep: the lease is not given on while a child that was
started has not been seen to close. -/
namespace Neurobro.Runner.Sidecar

def Phase.past : Phase → Bool
  | .reading _ | .leaving _ | .settled _ => true
  | _ => false

def Phase.outcome : Phase → Option Outcome
  | .leaving outcome | .settled outcome => some outcome
  | _ => none

/-- A call without a command, as far as an outcome tells. -/
def Outcome.Honest (started : Bool) (outcome : Outcome) : Prop :=
  outcome.effect = .none → started = false ∨ ∃ evidence, outcome = .result evidence ∧ evidence.processStartCount = 0

/-- What holds of a call by itself. -/
structure Call.Sound (call : Call) : Prop where
  fresh : call.phase = .idle ∨ call.phase = .verifying → call.lease = {} ∧ call.direct = {} ∧ call.child = {}
  born : call.child.started = true → call.lease.child = true
  runs : call.phase = .running → call.direct.settled = false ∧ call.lease.child = true
  ends : call.lease.child = true → call.phase ≠ .running → call.direct.settled = true
  quarantine : call.lease.quarantineHeld = call.direct.terminationTrigger.isSome
  kills : call.direct.killRequestCount = 1 → call.direct.terminationTrigger.isSome = true
  gone : call.phase.past = true → call.child.started = true → call.lease.matchingCloseObserved = false →
    call.lease.quarantineHeld = true
  returned : call.lease.terminalUnknownReturned = true → call.direct.settled = true
  told : ∀ outcome, call.phase.outcome = some outcome → outcome.Honest call.child.started
  waits : call.phase = .running →
    if call.direct.terminationTrigger = none then call.direct.deadlineTimer = true else call.direct.closeGraceTimer = true
  timers : call.direct.deadlineTimer = true ∨ call.direct.closeGraceTimer = true → call.phase = .running
  graced : call.direct.closeGraceTimer = true → call.direct.terminationTrigger.isSome = true
  seen : call.lease.matchingCloseObserved = true → call.child.closed = true

/-- The call holds the lease: it has not ended, or its child is still about. -/
def Call.Needs (call : Call) : Prop :=
  call.phase = .verifying ∨ call.phase = .running ∨
    (call.child.started = true ∧ call.lease.matchingCloseObserved = false)

theorem Call.sound_new : Call.Sound {} := by
  constructor <;> simp [Phase.past,Phase.outcome]

theorem Call.Sound.running {call : Call} (sound : call.Sound) (child : call.lease.child = true)
    (open_ : call.direct.settled = false) : call.phase = .running := by
  by_cases is_ : call.phase = .running
  · exact is_
  · simp [sound.ends child is_] at open_

theorem Call.Sound.requestTermination {call : Call} (sound : call.Sound) (child : call.lease.child = true)
    (trigger : Trigger) : (call.requestTermination trigger).Sound := by
  simp only [Call.requestTermination]
  split
  · exact sound
  · rename_i free
    simp only [not_or,Bool.not_eq_true] at free
    have running := sound.running child free.1
    constructor
    case gone => simp [running,Phase.past]
    case told => simp [running,Phase.outcome]
    case fresh => simp [running]
    case born => exact sound.born
    case runs => exact sound.runs
    case ends => exact sound.ends
    case quarantine => simp
    case kills => simp
    case returned => exact sound.returned
    case waits => simp
    case timers => exact fun _ => running
    case graced => simp
    case seen => exact sound.seen

theorem Call.Sound.asked {call : Call} (sound : call.Sound) (child : call.lease.child = true) :
    ¬(call.phase = .idle ∨ call.phase = .verifying) := by
  intro early
  simp [(sound.fresh early).1] at child

/-- What is noted beside the trigger and the timers. -/
structure Direct.Alike (d d' : Direct) : Prop where
  settled : d'.settled = d.settled
  trigger : d'.terminationTrigger = d.terminationTrigger
  kills : d'.killRequestCount = d.killRequestCount
  deadline : d'.deadlineTimer = d.deadlineTimer
  grace : d'.closeGraceTimer = d.closeGraceTimer

theorem Call.Sound.noting {call : Call} (sound : call.Sound) (child : call.lease.child = true) (direct : Direct)
    (alike : call.direct.Alike direct) : Call.Sound { call with direct } := by
  obtain ⟨settled,trigger,kills,deadline,grace⟩ := alike
  constructor
  case fresh => exact fun early => absurd early (sound.asked child)
  case born => exact sound.born
  case runs => simpa only [settled] using sound.runs
  case ends => simpa only [settled] using sound.ends
  case quarantine => simpa only [trigger] using sound.quarantine
  case kills => simpa only [kills,trigger] using sound.kills
  case gone => exact sound.gone
  case returned => simpa only [settled] using sound.returned
  case told => exact sound.told
  case waits => simpa only [trigger,deadline,grace] using sound.waits
  case timers => simpa only [deadline,grace] using sound.timers
  case graced => simpa only [trigger,grace] using sound.graced
  case seen => exact sound.seen

theorem Call.Sound.stdoutData {call : Call} (sound : call.Sound) (child : call.lease.child = true) (chunk : Bytes) :
    (call.stdoutData chunk).Sound := by
  simp only [Call.stdoutData]
  split
  · exact sound
  · split
    · refine Call.Sound.requestTermination ?_ ?_ _
      · exact sound.noting child _ ⟨rfl,rfl,rfl,rfl,rfl⟩
      · exact child
    · exact sound.noting child _ ⟨rfl,rfl,rfl,rfl,rfl⟩

theorem Call.Sound.stderrData {call : Call} (sound : call.Sound) (child : call.lease.child = true) (chunk : Bytes) :
    (call.stderrData chunk).Sound := by
  simp only [Call.stderrData]
  split
  · exact sound
  · split
    · refine Call.Sound.requestTermination ?_ ?_ _
      · exact sound.noting child _ ⟨rfl,rfl,rfl,rfl,rfl⟩
      · exact child
    · exact sound.noting child _ ⟨rfl,rfl,rfl,rfl,rfl⟩

/-- The deadline is set off and asks for a termination, unless one is under way. -/
theorem Call.Sound.deadline {call : Call} (sound : call.Sound) (timer : call.direct.deadlineTimer = true) :
    call.deadline.Sound := by
  have running := sound.timers (.inl timer)
  obtain ⟨open_,child⟩ := sound.runs running
  have unreturned : call.lease.terminalUnknownReturned = false := by
    cases returned : call.lease.terminalUnknownReturned with
    | false => rfl
    | true => simp [sound.returned returned] at open_
  simp only [Call.deadline,Call.requestTermination,open_,Bool.false_eq_true,false_or]
  cases trigger : call.direct.terminationTrigger with
  | some t =>
    have grace := sound.waits running
    simp only [trigger,reduceCtorEq,if_false] at grace
    simp only [Option.isSome_some,if_true]
    constructor
    case fresh => simp [running]
    case born => exact sound.born
    case runs => exact fun _ => ⟨rfl,child⟩
    case ends => exact fun _ other => absurd running other
    case quarantine => simpa only [trigger] using sound.quarantine
    case kills => simp
    case gone => simp [running,Phase.past]
    case returned => simp [unreturned]
    case told => simp [running,Phase.outcome]
    case waits => exact fun _ => by simpa using grace
    case timers => exact fun _ => running
    case graced => simp
    case seen => exact sound.seen
  | none =>
    simp only [Option.isSome_none,Bool.false_eq_true,if_false]
    constructor
    case fresh => simp [running]
    case born => exact sound.born
    case runs => exact fun _ => ⟨rfl,child⟩
    case ends => exact fun _ other => absurd running other
    case quarantine => simp
    case kills => simp
    case gone => simp [running,Phase.past]
    case returned => simp [unreturned]
    case told => simp [running,Phase.outcome]
    case waits => simp
    case timers => exact fun _ => running
    case graced => simp
    case seen => exact sound.seen

/-- The grace ends in an unknown termination, with the child in quarantine. -/
theorem Call.Sound.graceEnds {call : Call} (sound : call.Sound) (timer : call.direct.closeGraceTimer = true)
    (authority : Authority) (answer : Option Bool) : (call.graceEnds authority answer).Sound := by
  have running := sound.timers (.inr timer)
  obtain ⟨open_,child⟩ := sound.runs running
  obtain ⟨t,is_⟩ := Option.isSome_iff_exists.mp (sound.graced timer)
  have held : call.lease.quarantineHeld = true := by simp [sound.quarantine,is_]
  simp only [Call.graceEnds,Call.killed,Call.finishTermination,open_,is_,Bool.false_eq_true,reduceCtorEq,or_self,if_false]
  simp only [ne_eq,not_true_eq_false,if_false]
  constructor
  case fresh => simp
  case born => exact sound.born
  case runs => simp
  case ends => simp
  case quarantine => simpa using held
  case kills => simp
  case gone => exact fun _ _ _ => held
  case returned => simp
  case told => simp [Phase.outcome,Outcome.Honest,Outcome.effect]
  case waits => simp
  case timers => simp
  case graced => simp
  case seen => exact sound.seen

/-- What a call that has no trigger settles with. -/
theorem Call.Sound.settle {call : Call} (sound : call.Sound)
    (free : call.direct.terminationTrigger = none) {phase : Phase} (past : phase.past = true)
    (gone : call.child.started = true → call.lease.matchingCloseObserved = true)
    (told : ∀ outcome, phase.outcome = some outcome → outcome.Honest call.child.started) :
    (call.settle phase).Sound := by
  have grace : call.direct.closeGraceTimer = false := by
    cases timer : call.direct.closeGraceTimer with
    | false => rfl
    | true => simpa [free] using sound.graced timer
  have late : phase ≠ .idle ∧ phase ≠ .verifying ∧ phase ≠ .running := by
    refine ⟨?_,?_,?_⟩ <;> rintro rfl <;> simp [Phase.past] at past
  constructor
  case fresh => simp [Call.settle,late]
  case born => exact sound.born
  case runs => simp [Call.settle,late]
  case ends => simp [Call.settle]
  case quarantine => exact sound.quarantine
  case kills => exact sound.kills
  case gone =>
    intro _ started unseen
    have unseen : call.lease.matchingCloseObserved = false := unseen
    simp [gone started] at unseen
  case returned => simp [Call.settle]
  case told => exact told
  case waits => simp [Call.settle,late]
  case timers => simp [Call.settle,grace]
  case graced => exact sound.graced
  case seen => exact sound.seen

/-- What becomes of the process changes nothing that the call rests on. -/
theorem Call.Sound.process {call : Call} (sound : call.Sound) (child_ : call.lease.child = true) (child : Child)
    (started : child.started = call.child.started) (closed : call.child.closed = true → child.closed = true) :
    Call.Sound { call with child } := by
  constructor
  case fresh => exact fun is_ => absurd is_ (sound.asked child_)
  case born => simpa only [started] using sound.born
  case runs => exact sound.runs
  case ends => exact sound.ends
  case quarantine => exact sound.quarantine
  case kills => exact sound.kills
  case gone => simpa only [started] using sound.gone
  case returned => exact sound.returned
  case told => simpa only [started] using sound.told
  case waits => exact sound.waits
  case timers => exact sound.timers
  case graced => exact sound.graced
  case seen => exact fun seen => closed (sound.seen seen)

/-- A child that may fail without a kill was never started. -/
theorem Call.Sound.error {call : Call} (sound : call.Sound) (may : call.mayFail = true) (error : String) :
    (Call.error { call with child := { call.child with errored := true } } error).Sound := by
  simp only [Call.mayFail,Bool.and_eq_true,Bool.or_eq_true,Bool.not_eq_true',decide_eq_true_eq] at may
  obtain ⟨⟨child,_⟩,why⟩ := may
  have next := sound.process child { call.child with errored := true } rfl id
  simp only [Call.error]
  split
  · exact next
  · rename_i free
    simp only [not_or,Bool.not_eq_true] at free
    obtain ⟨open_,none_⟩ := free
    have unstarted : call.child.started = false := by
      rcases why with no | killed
      · exact no
      · simp [sound.kills killed] at none_
    refine next.settle (by simpa using none_) rfl (by simp [unstarted]) ?_
    intro outcome _ _
    exact .inl unstarted

/-- The first close that the call sees. -/
theorem Call.Sound.observed {call : Call} (sound : call.Sound) (child : call.lease.child = true)
    (closed : call.child.closed = true) :
    Call.Sound { call with lease := { call.lease with matchingCloseObserved := true } } := by
  constructor
  case fresh => exact fun is_ => absurd is_ (sound.asked child)
  case born => exact sound.born
  case runs => exact sound.runs
  case ends => exact sound.ends
  case quarantine => exact sound.quarantine
  case kills => exact sound.kills
  case gone => simp
  case returned => exact sound.returned
  case told => exact sound.told
  case waits => exact sound.waits
  case timers => exact sound.timers
  case graced => exact sound.graced
  case seen => exact fun _ => closed

theorem Call.Sound.closes {call : Call} (sound : call.Sound) (child : call.lease.child = true)
    (seen : call.lease.matchingCloseObserved = true) (authority : Authority) (code : Option Int32) :
    (call.closes authority code).Sound := by
  simp only [Call.closes]
  split
  · exact sound
  · split
    · exact sound.noting child _ ⟨rfl,rfl,rfl,rfl,rfl⟩
    · rename_i free
      refine sound.settle (by simpa using free) rfl (fun _ => seen) ?_
      simp [Phase.outcome]

theorem honest_terminal (code : String) (recovered started : Bool) : (Outcome.terminal code recovered).Honest started := by
  simp [Outcome.Honest,Outcome.effect]

theorem honest_result (evidence : ProcessEvidence) (started : Bool) : (Outcome.result evidence).Honest started := by
  intro none_
  simp only [Outcome.effect] at none_
  split at none_
  · exact .inr ⟨evidence,rfl,‹_›⟩
  · contradiction

theorem conclude_honest (checks : Checks) (raw : RawResult) (evidence : Option Bytes) (started : Bool) :
    (conclude checks raw evidence).Honest started := by
  simp only [conclude]
  repeat' split
  all_goals first | exact honest_terminal _ _ _ | exact honest_result _ _

theorem Call.Sound.concluded {call : Call} (sound : call.Sound) (here : call.phase = .reading raw)
    (checks : Checks) (evidence : Option Bytes) :
    Call.Sound { call with phase := .leaving (conclude checks raw evidence) } := by
  constructor
  case fresh => simp
  case born => exact sound.born
  case runs => simp
  case ends => exact fun child _ => sound.ends child (by simp [here])
  case quarantine => exact sound.quarantine
  case kills => exact sound.kills
  case gone => exact fun _ => sound.gone (by simp [here,Phase.past])
  case returned => exact sound.returned
  case told =>
    rintro _ ⟨⟩
    exact conclude_honest checks raw evidence _
  case waits => simp
  case timers =>
    intro timer
    simpa [here] using sound.timers timer
  case graced => exact sound.graced
  case seen => exact sound.seen

theorem Call.Sound.left {call : Call} (sound : call.Sound) {outcome : Outcome} (here : call.phase = .leaving outcome) :
    Call.Sound { call with phase := .settled outcome } := by
  constructor
  case fresh => simp
  case born => exact sound.born
  case runs => simp
  case ends => exact fun child _ => sound.ends child (by simp [here])
  case quarantine => exact sound.quarantine
  case kills => exact sound.kills
  case gone => exact fun _ => sound.gone (by simp [here,Phase.past])
  case returned => exact sound.returned
  case told =>
    rintro _ ⟨⟩
    exact sound.told outcome (by simp [here,Phase.outcome])
  case waits => simp
  case timers =>
    intro timer
    simpa [here] using sound.timers timer
  case graced => exact sound.graced
  case seen => exact sound.seen

/-- A call that has not come to its child. -/
theorem Call.sound_early (call : Call) (bare : call.lease = {} ∧ call.direct = {} ∧ call.child = {})
    (phase : call.phase ≠ .running) (told : ∀ outcome, call.phase.outcome = some outcome → outcome.Honest false) :
    call.Sound := by
  obtain ⟨lease,direct,child⟩ := bare
  constructor <;> simp [lease,direct,child,phase]
  exact told

/-! ## All calls -/

structure Adapter.Inv (w : Adapter) : Prop where
  sound : ∀ c, (w.calls c).Sound
  held : ∀ c, (w.calls c).Needs → w.active = some c
  bounded : ∀ c g, (w.calls c).lease.generation = some g → g ≤ w.lastGeneration
  distinct : ∀ c c' g, (w.calls c).lease.generation = some g → (w.calls c').lease.generation = some g → c = c'

theorem Adapter.inv_start : Adapter.Inv {} := by
  refine ⟨fun _ => Call.sound_new,fun c needs => ?_,by simp,by simp⟩
  simp [Call.Needs] at needs

/-- A step within one call that keeps its lease. -/
theorem Adapter.Inv.put {w : Adapter} (inv : w.Inv) {call : Call} (sound : call.Sound)
    (needs : call.Needs → w.active = some c) (own : ∀ g, call.lease.generation = some g →
      g ≤ w.lastGeneration ∧ ∀ j, (w.calls j).lease.generation = some g → j = c) : (w.put c call).Inv := by
  have here : (w.put c call).calls c = call := if_pos rfl
  have there {j : Nat} (other : j ≠ c) : (w.put c call).calls j = w.calls j := if_neg other
  refine ⟨fun j => ?_,fun j => ?_,fun j g => ?_,fun j j' g first second => ?_⟩
  · by_cases is_ : j = c
    · rw [is_,here]
      exact sound
    · rw [there is_]
      exact inv.sound j
  · by_cases is_ : j = c
    · rw [is_,here]
      exact needs
    · rw [there is_]
      exact inv.held j
  · by_cases is_ : j = c
    · rw [is_,here]
      exact fun gen => (own g gen).1
    · rw [there is_]
      exact inv.bounded j g
  · by_cases is_ : j = c <;> by_cases is' : j' = c
    · rw [is_,is']
    · rw [is_,here] at first
      rw [there is'] at second
      rw [is_,(own g first).2 j' second]
    · rw [there is_] at first
      rw [is',here] at second
      rw [is',(own g second).2 j first]
    · rw [there is_] at first
      rw [there is'] at second
      exact inv.distinct j j' g first second

/-- The same, where the generation stays. -/
theorem Adapter.Inv.within {w : Adapter} (inv : w.Inv) {call : Call} (sound : call.Sound)
    (needs : call.Needs → (w.calls c).Needs) (generation : call.lease.generation = (w.calls c).lease.generation) :
    (w.put c call).Inv := by
  refine inv.put sound (fun n => inv.held c (needs n)) fun g gen => ?_
  rw [generation] at gen
  exact ⟨inv.bounded c g gen,fun j other => inv.distinct j c g other gen⟩

theorem Call.not_needs_bare {call : Call} (phase : call.phase ≠ .verifying ∧ call.phase ≠ .running)
    (bare : call.child.started = false) : ¬call.Needs := by
  simp [Call.Needs,phase,bare]

/-- The lease of a call that no longer needs it is given back. -/
theorem Adapter.Inv.free {w : Adapter} (inv : w.Inv) (here : w.active = some c) (done : ¬(w.calls c).Needs) :
    Adapter.Inv { w with active := none } := by
  refine ⟨inv.sound,fun j needs => ?_,inv.bounded,inv.distinct⟩
  have held := inv.held j needs
  rw [here,Option.some.injEq] at held
  subst held
  exact absurd needs done

/-- The lease is taken where nobody needs it. -/
theorem Adapter.Inv.take {w : Adapter} (inv : w.Inv) (idle : w.active = none) (c : Nat) :
    Adapter.Inv { w with active := some c } := by
  refine ⟨inv.sound,fun j needs => ?_,inv.bounded,inv.distinct⟩
  have held := inv.held j needs
  simp [idle] at held

/-! ## Steps -/

theorem Adapter.Inv.invoke {w w' : Adapter} (inv : w.Inv) (took : w.invoke c = some w') : w'.Inv := by
  simp only [Adapter.invoke] at took
  split at took
  · rename_i idle
    have bare := (inv.sound c).fresh (.inl idle)
    have unborn : (w.calls c).child.started = false := by simp [bare.2.2]
    split at took
    · cases took
      refine inv.within (Call.sound_early _ bare (by simp) ?_) ?_ rfl
      · simp [Phase.outcome,Outcome.Honest]
      · exact fun needs => absurd needs (Call.not_needs_bare (by simp) unborn)
    · rename_i free
      cases took
      have none_ : w.active = none := by simpa using free
      refine (inv.take none_ c).put (Call.sound_early _ bare (by simp) (by simp [Phase.outcome])) (fun _ => rfl) ?_
      simp [bare.1]
  · contradiction

theorem Adapter.Inv.refuse {w w' : Adapter} (inv : w.Inv) (took : w.refuse c code = some w') : w'.Inv:= by
  simp only [Adapter.refuse] at took
  split at took
  · rename_i here
    cases took
    have bare := (inv.sound c).fresh (.inr here)
    refine inv.within (Call.sound_early _ bare (by simp) ?_) (fun _ => .inl here) rfl
    simp [Phase.outcome,Outcome.Honest]
  · contradiction

theorem Adapter.Inv.spawn {w w' : Adapter} (inv : w.Inv) (took : w.spawn c spawned = some w') : w'.Inv:= by
  simp only [Adapter.spawn] at took
  split at took
  · rename_i here
    have bare := (inv.sound c).fresh (.inr here)
    have held := inv.held c (.inl here)
    split at took
    · cases took
      refine inv.within (Call.sound_early _ bare (by simp) ?_) (fun _ => .inl here) rfl
      simp [Phase.outcome,Outcome.Honest]
    · split at took
      · cases took
        refine inv.within (Call.sound_early _ bare (by simp) ?_) (fun _ => .inl here) rfl
        simp [Phase.outcome,Outcome.Honest]
      · cases took
        have later : Adapter.Inv { w with lastGeneration := w.lastGeneration + 1 } :=
          ⟨inv.sound,inv.held,fun j g gen => Nat.le_succ_of_le (inv.bounded j g gen),inv.distinct⟩
        have fresh (g : Nat) (is_ : some (w.lastGeneration + 1) = some g) : g ≤ w.lastGeneration + 1 ∧
            ∀ j, (w.calls j).lease.generation = some g → j = c := by
          cases is_
          refine ⟨Nat.le_refl _,fun j gen => ?_⟩
          have := inv.bounded j _ gen
          omega
        obtain ⟨lease,direct,child⟩ := bare
        cases spawned with
        | thrown error =>
          refine later.put (c := c) ?_ (fun _ => held) fresh
          constructor <;> simp [lease,direct,child,Phase.past,Phase.outcome,Outcome.Honest]
        | refused =>
          refine later.put (c := c) ?_ (fun _ => held) fresh
          constructor <;> simp [lease,direct,child,Phase.past,Phase.outcome]
        | started =>
          refine later.put (c := c) ?_ (fun _ => held) fresh
          constructor <;> simp [lease,direct,child,Phase.past,Phase.outcome]
  · contradiction

/-- A call that goes no further than before, or past its end. -/
theorem Call.Needs.of {call call' : Call} (needs : call'.Needs) (phase : call'.phase = call.phase ∨ call'.phase.past = true)
    (child : call'.child.started = call.child.started)
    (seen : call'.lease.matchingCloseObserved = call.lease.matchingCloseObserved) : call.Needs := by
  rcases phase with phase | past
  · simpa only [Call.Needs,phase,child,seen] using needs
  · rcases needs with is_ | is_ | ⟨started,unseen⟩
    · simp [is_,Phase.past] at past
    · simp [is_,Phase.past] at past
    · exact .inr (.inr ⟨child ▸ started,seen ▸ unseen⟩)

theorem Call.closes_needs {authority : Authority} {call : Call}
    (needs : (call.closes authority code).Needs) : call.Needs := by
  simp only [Call.closes] at needs
  split at needs
  · exact needs
  · split at needs
    · exact needs
    · exact needs.of (.inr rfl) rfl rfl

theorem Call.closes_lease (authority : Authority) (code : Option Int32) (call : Call) :
    (call.closes authority code).lease = call.lease := by
  simp only [Call.closes]
  split
  · rfl
  · split <;> rfl

/-- A close is told to the adapter. -/
theorem Adapter.Inv.onChildClose {w : Adapter} (inv : w.Inv) (closed : (w.calls c).child.closed = true)
    (authority : Authority) (code : Option Int32) : (w.onChildClose authority c code).Inv := by
  simp only [Adapter.onChildClose,Adapter.observeMatchingChildClose]
  split
  · exact inv
  · rename_i w₁ observed
    split at observed
    · contradiction
    · rename_i matching
      simp only [ne_eq,not_or,Classical.not_not,Bool.not_eq_false,Bool.not_eq_true] at matching
      obtain ⟨active,child,_,unseen⟩ := matching
      have sound := (inv.sound c).observed child closed
      have seen := inv.within sound (by
        rintro (is_ | is_ | ⟨_,no⟩)
        · exact .inl is_
        · exact .inr (.inl is_)
        · contradiction) rfl
      cases observed
      have here : ∀ call : Call, (w.put c call).calls c = call := fun call => if_pos rfl
      have freed : Adapter.Inv { w.put c { w.calls c with lease := { (w.calls c).lease with matchingCloseObserved := true } }
          with active := if (w.calls c).lease.quarantineHeld = true ∧ (w.calls c).lease.terminalUnknownReturned = true
            then none else w.active } := by
        split
        · rename_i both
          have settled := (inv.sound c).returned both.2
          refine seen.free active ?_
          rw [here]
          rintro (is_ | is_ | ⟨_,no⟩)
          · simp [((inv.sound c).fresh (.inr is_)).1] at child
          · simp [((inv.sound c).runs is_).1] at settled
          · contradiction
        · exact seen
      refine freed.within ?_ ?_ ?_
      · refine Call.Sound.closes ?_ ?_ ?_ _ _
        · exact freed.sound c
        · simpa [here] using child
        · simp [here]
      · exact Call.closes_needs
      · rw [Call.closes_lease]

theorem Adapter.Inv.leave {w w' : Adapter} (inv : w.Inv) (took : w.leave c = some w') : w'.Inv := by
  simp only [Adapter.leave] at took
  split at took
  · rename_i outcome here
    have sound := (inv.sound c).left here
    have next := inv.within sound (by
      rintro (is_ | is_ | left)
      · contradiction
      · contradiction
      · exact .inr (.inr left)) rfl
    cases took
    split
    · rename_i release
      refine next.free release.1 ?_
      have is_ : ∀ call : Call, (w.put c call).calls c = call := fun call => if_pos rfl
      rw [is_]
      rintro (no | no | ⟨started,unseen⟩)
      · contradiction
      · contradiction
      · exact release.2 ⟨sound.gone rfl started unseen,unseen⟩
    · exact next
  · contradiction

theorem Call.requestTermination_same (call : Call) (trigger : Trigger) :
    (call.requestTermination trigger).phase = call.phase ∧ (call.requestTermination trigger).child = call.child ∧
      (call.requestTermination trigger).lease.matchingCloseObserved = call.lease.matchingCloseObserved ∧
      (call.requestTermination trigger).lease.generation = call.lease.generation := by
  simp only [Call.requestTermination]
  split <;> exact ⟨rfl,rfl,rfl,rfl⟩

theorem Call.graceEnds_same (authority : Authority) (call : Call) (answer : Option Bool) :
    ((call.graceEnds authority answer).phase = call.phase ∨ (call.graceEnds authority answer).phase.past = true) ∧
      (call.graceEnds authority answer).child = call.child ∧
      (call.graceEnds authority answer).lease.matchingCloseObserved = call.lease.matchingCloseObserved ∧
      (call.graceEnds authority answer).lease.generation = call.lease.generation := by
  simp only [Call.graceEnds]
  split
  · exact ⟨.inl rfl,rfl,rfl,rfl⟩
  · simp only [Call.finishTermination]
    split
    · split <;> exact ⟨.inr rfl,rfl,rfl,rfl⟩
    · exact ⟨.inl rfl,rfl,rfl,rfl⟩

theorem Call.stdoutData_same (call : Call) (chunk : Bytes) :
    (call.stdoutData chunk).phase = call.phase ∧ (call.stdoutData chunk).child = call.child ∧
      (call.stdoutData chunk).lease.matchingCloseObserved = call.lease.matchingCloseObserved ∧
      (call.stdoutData chunk).lease.generation = call.lease.generation := by
  simp only [Call.stdoutData]
  split
  · exact ⟨rfl,rfl,rfl,rfl⟩
  · split
    · exact Call.requestTermination_same _ _
    · exact ⟨rfl,rfl,rfl,rfl⟩

theorem Call.stderrData_same (call : Call) (chunk : Bytes) :
    (call.stderrData chunk).phase = call.phase ∧ (call.stderrData chunk).child = call.child ∧
      (call.stderrData chunk).lease.matchingCloseObserved = call.lease.matchingCloseObserved ∧
      (call.stderrData chunk).lease.generation = call.lease.generation := by
  simp only [Call.stderrData]
  split
  · exact ⟨rfl,rfl,rfl,rfl⟩
  · split
    · exact Call.requestTermination_same _ _
    · exact ⟨rfl,rfl,rfl,rfl⟩

theorem Call.error_same (call : Call) (error : String) :
    ((call.error error).phase = call.phase ∨ (call.error error).phase.past = true) ∧ (call.error error).child = call.child ∧
      (call.error error).lease = call.lease := by
  simp only [Call.error]
  split
  · exact ⟨.inl rfl,rfl,rfl⟩
  · exact ⟨.inr rfl,rfl,rfl⟩

theorem Adapter.Inv.step {setting : Setting} {w w' : Adapter} {event : Event} (inv : w.Inv)
    (took : w.step setting event = some w') : w'.Inv := by
  cases event with
  | invoke c => exact inv.invoke took
  | refuse c code => exact inv.refuse took
  | spawn c spawned => exact inv.spawn took
  | deadline c =>
    simp only [Adapter.step] at took
    split at took <;> cases took
    rename_i timer
    obtain ⟨phase,child,seen,generation⟩ := Call.requestTermination_same { w.calls c with direct := { (w.calls c).direct with
      deadlineExceeded := true, deadlineTimer := false } } .aggregateDeadline
    exact inv.within ((inv.sound c).deadline timer) (fun needs => needs.of (.inl phase) (congrArg _ child) seen) generation
  | fixtureDeadline c =>
    simp only [Adapter.step] at took
    split at took <;> cases took
    rename_i guard
    obtain ⟨phase,child,seen,generation⟩ := Call.requestTermination_same (w.calls c) .aggregateDeadline
    exact inv.within ((inv.sound c).requestTermination guard.1 _) (fun needs => needs.of (.inl phase) (congrArg _ child) seen)
      generation
  | graceEnds c answer =>
    simp only [Adapter.step] at took
    split at took <;> cases took
    rename_i timer
    obtain ⟨phase,child,seen,generation⟩ := Call.graceEnds_same (setting.authority c) (w.calls c) answer
    exact inv.within ((inv.sound c).graceEnds timer _ _) (fun needs => needs.of phase (congrArg _ child) seen) generation
  | stdoutData c chunk =>
    simp only [Adapter.step] at took
    split at took <;> cases took
    rename_i asked
    obtain ⟨phase,child,seen,generation⟩ := Call.stdoutData_same (w.calls c) chunk
    exact inv.within ((inv.sound c).stdoutData asked _) (fun needs => needs.of (.inl phase) (congrArg _ child) seen) generation
  | stderrData c chunk =>
    simp only [Adapter.step] at took
    split at took <;> cases took
    rename_i asked
    obtain ⟨phase,child,seen,generation⟩ := Call.stderrData_same (w.calls c) chunk
    exact inv.within ((inv.sound c).stderrData asked _) (fun needs => needs.of (.inl phase) (congrArg _ child) seen) generation
  | error c error =>
    simp only [Adapter.step] at took
    split at took <;> cases took
    rename_i may
    obtain ⟨phase,child,lease⟩ := Call.error_same { w.calls c with child := { (w.calls c).child with errored := true } } error
    refine inv.within ((inv.sound c).error may _) ?_ (congrArg _ lease)
    exact fun needs => needs.of phase (by rw [child]) (congrArg _ lease)
  | close c code =>
    simp only [Adapter.step] at took
    split at took <;> cases took
    rename_i guard
    have closed := inv.within ((inv.sound c).process guard.1 { (w.calls c).child with closed := true } rfl (fun _ => rfl))
      (fun needs => needs.of (.inl rfl) rfl rfl) rfl
    exact closed.onChildClose (by simp [Adapter.put]) _ _
  | closeAgain c =>
    simp only [Adapter.step] at took
    split at took <;> cases took
    rename_i guard
    exact inv.onChildClose guard.1 _ _
  | evidence c evidence =>
    simp only [Adapter.step] at took
    split at took
    · rename_i raw here
      cases took
      refine inv.within ((inv.sound c).concluded here _ _) ?_ rfl
      rintro (no | no | left)
      · contradiction
      · contradiction
      · exact .inr (.inr left)
    · contradiction
  | leave c => exact inv.leave took

theorem Leads.inv (run : Leads setting {} w) : w.Inv := by
  induction run with
  | refl => exact Adapter.inv_start
  | step before took ih => exact ih.step took

end Neurobro.Runner.Sidecar
