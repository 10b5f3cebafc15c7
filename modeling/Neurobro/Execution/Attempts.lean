import Neurobro.Execution.OneShot
import Neurobro.Execution.Started

/-! What all runs around a disk keep: a command is started once for a marker, by the run
that created the marker and the evidence file and saw both written out. -/
namespace Neurobro.Runner

open List

/-! ## One execution -/

/-- Before the child is there. -/
def Main.early : Main → Bool
  | .begin | .creatingJob | .spawning => true
  | _ => false

def Exec.Quiet (s : Exec) : Prop := s.main.early = true → s.spawned = false

theorem Exec.Quiet.late {s : Exec} {main : Main} (late : main.early = false) : (s.goto main).Quiet := by
  intro early
  have early : main.early = true := early
  simp [late] at early

/-- The child does not go away again, and none comes where one was already. -/
theorem Exec.Quiet.step {fault : FaultMode} {s s' : Exec} {event : Event} (quiet : s.Quiet)
    (took : s.step fault event = some s') : s'.Quiet ∧ (s.spawned = true → s'.spawned = true) := by
  cases event with
  | clock reading =>
    simp only [Exec.step,Exec.clock] at took
    split at took
    · rename_i here
      split at took <;> cases took
      · exact ⟨Quiet.late rfl,id⟩
      · exact ⟨fun _ => quiet (by simp [here,Main.early]),id⟩
    all_goals cases took
    all_goals exact ⟨Quiet.late rfl,id⟩
  | job result =>
    simp only [Exec.step,Exec.job] at took
    split at took <;> cases took
    · rename_i here _
      exact ⟨fun _ => quiet (by simp [here,Main.early]),id⟩
    · exact ⟨Quiet.late rfl,id⟩
  | spawn result =>
    simp only [Exec.step,Exec.spawn] at took
    split at took <;> cases took
    · exact ⟨fun early => by simp [Main.early] at early,fun _ => rfl⟩
    · exact ⟨Quiet.late rfl,id⟩
  | assign result =>
    simp only [Exec.step,Exec.assign] at took
    split at took <;> cases took
    · exact ⟨Quiet.late (by split <;> rfl),id⟩
    · exact ⟨Quiet.late rfl,id⟩
  | kill result =>
    simp only [Exec.step,Exec.kill] at took
    split at took
    case h_4 => split at took <;> cases took <;> exact ⟨Quiet.late rfl,id⟩
    all_goals cases took
    all_goals exact ⟨Quiet.late rfl,id⟩
  | wait result =>
    simp only [Exec.step,Exec.wait] at took
    split at took
    case h_1 why status _ =>
      cases took
      exact ⟨Quiet.late (by cases why <;> rfl),id⟩
    case h_3 => split at took <;> cases took <;> exact ⟨Quiet.late rfl,id⟩
    case h_4 => split at took <;> cases took <;> exact ⟨Quiet.late rfl,id⟩
    all_goals cases took
    all_goals exact ⟨Quiet.late rfl,id⟩
  | resume result =>
    simp only [Exec.step,Exec.resume] at took
    split at took <;> cases took
    · exact ⟨Quiet.late (by split <;> [rfl; (split <;> rfl)]),id⟩
    · exact ⟨Quiet.late rfl,id⟩
  | look =>
    simp only [Exec.step,Exec.look] at took
    split at took
    case h_1 =>
      cases took
      exact ⟨fun early => by simp [Main.early] at early,id⟩
    case h_2 | h_3 =>
      cases took
      exact ⟨Quiet.late (by split <;> rfl),id⟩
    case h_7 => contradiction
    all_goals split at took <;> cases took <;> exact ⟨Quiet.late rfl,id⟩
  | now late =>
    simp only [Exec.step,Exec.now] at took
    split at took <;> cases took
    exact ⟨Quiet.late (by split <;> rfl),id⟩
  | tryWait result =>
    simp only [Exec.step,Exec.tryWait] at took
    split at took <;> cases took <;> exact ⟨Quiet.late rfl,id⟩
  | stdoutRead chunk =>
    obtain ⟨stdout,_,rfl⟩ := Option.map_eq_some_iff.mp took
    exact ⟨quiet,id⟩
  | stderrRead chunk =>
    obtain ⟨stderr,_,rfl⟩ := Option.map_eq_some_iff.mp took
    exact ⟨quiet,id⟩
  | stdinEnds ok =>
    simp only [Exec.step] at took
    split at took <;> cases took
    exact ⟨quiet,id⟩

/-! ## The record -/

/-- What comes before a start. -/
def preparations : List Deed := [.createdMarker,.syncedMarker,.createdEvidence,.syncedEvidence]

/-- Every start stands after its preparations, is the only one of its run and never beside a marker found. -/
def Sound : List (Nat × Deed) → Prop
  | [] => True
  | (i,deed) :: rest => Sound rest ∧
    (deed = .started → (∀ d ∈ preparations, (i,d) ∈ rest) ∧ (i,Deed.started) ∉ rest ∧ (i,Deed.foundMarker) ∉ rest) ∧
    (deed = .foundMarker → (i,Deed.started) ∉ rest)

/-- What a run has done when it comes to a phase. -/
def Phase.done : Phase → List Deed
  | .writingMarker | .syncingMarker => [.createdMarker]
  | .measuringMarker | .racing | .creatingEvidence => [.createdMarker,.syncedMarker]
  | .syncingEvidence => [.createdMarker,.syncedMarker,.createdEvidence]
  | .starting | .executing _ => preparations
  | _ => []

/-- The run may yet start its command. -/
def Phase.mayStart : Phase → Bool
  | .executing exec => !exec.spawned
  | .finishing | .over => false
  | _ => true

section worlds
variable {ν : Type}

theorem Kind.written_cases (kind : Kind) : kind.written = .over ∨ kind.written = .syncingMarker := by
  simp only [Kind.written]
  split <;> simp

theorem Kind.measured_cases (kind : Kind) : kind.measured = .racing ∨ kind.measured = .creatingEvidence := by
  simp only [Kind.measured]
  split <;> simp

theorem Kind.reserved_cases (kind : Kind) : kind.reserved = .executing {} ∨ kind.reserved = .starting := by
  cases kind <;> simp [Kind.reserved]

/-- What files of its own a run has in a phase. -/
def Phase.Owns (disk : Disk ν Nat) (i : Nat) (marker evidence : ν) : Phase → Prop
  | .writingMarker | .syncingMarker => disk.Made i marker
  | .measuringMarker | .racing | .creatingEvidence => disk.Kept i marker
  | .syncingEvidence => disk.Kept i marker ∧ disk.Made i evidence
  | .starting | .executing _ => disk.Kept i marker ∧ disk.Kept i evidence
  | _ => True

theorem Phase.Owns.grows {disk disk' : Disk ν Nat} {i : Nat} {marker evidence : ν} {phase : Phase}
    (owns : phase.Owns disk i marker evidence) (grows : disk.Grows disk') : phase.Owns disk' i marker evidence := by
  cases phase with
  | writingMarker | syncingMarker => exact grows.made _ _ owns
  | measuringMarker | racing | creatingEvidence => exact grows.kept _ _ owns
  | syncingEvidence => exact ⟨grows.kept _ _ owns.1,grows.made _ _ owns.2⟩
  | starting | executing => exact ⟨grows.kept _ _ owns.1,grows.kept _ _ owns.2⟩
  | _ => trivial

structure Runs.Inv (setting : Setting ν) (w : Runs ν) : Prop where
  owns : ∀ i, (w.phase i).Owns w.disk i (setting.marker i) (setting.evidence i)
  done : ∀ i, ∀ deed ∈ (w.phase i).done, (i,deed) ∈ w.log
  may : ∀ i, (w.phase i).mayStart = true → (i,Deed.started) ∉ w.log ∧ (i,Deed.foundMarker) ∉ w.log
  quiet : ∀ i exec, w.phase i = .executing exec → exec.Quiet
  kept : ∀ i, (i,Deed.started) ∈ w.log → w.disk.Kept i (setting.marker i) ∧ w.disk.Kept i (setting.evidence i)
  sound : Sound w.log

variable {setting : Setting ν} {w : Runs ν}

theorem Runs.Inv.disk (inv : w.Inv setting) {disk : Disk ν Nat} (grows : w.disk.Grows disk) :
    Runs.Inv setting { w with disk } :=
  ⟨fun i => (inv.owns i).grows grows,inv.done,inv.may,inv.quiet,
    fun i started => ⟨grows.kept _ _ (inv.kept i started).1,grows.kept _ _ (inv.kept i started).2⟩,inv.sound⟩

theorem Runs.Inv.goto (inv : w.Inv setting) (i : Nat) {phase : Phase}
    (owns : phase.Owns w.disk i (setting.marker i) (setting.evidence i)) (done : ∀ deed ∈ phase.done, (i,deed) ∈ w.log)
    (may : phase.mayStart = true → (w.phase i).mayStart = true) (quiet : ∀ exec, phase = .executing exec → exec.Quiet) :
    (w.goto i phase).Inv setting := by
  refine ⟨fun j => ?_,fun j => ?_,fun j => ?_,fun j => ?_,inv.kept,inv.sound⟩
  all_goals
    by_cases same : j = i
    · subst same
      simp only [Runs.goto,if_true]
      first | exact owns | exact done | exact fun open_ => inv.may j (may open_) | exact quiet
    · simp only [Runs.goto,if_neg same]
      first | exact inv.owns j | exact inv.done j | exact inv.may j | exact inv.quiet j

/-- A phase in which nothing is owned and nothing may start. -/
theorem Runs.Inv.ends (inv : w.Inv setting) (i : Nat) {phase : Phase} (is_ : phase = .finishing ∨ phase = .over) :
    (w.goto i phase).Inv setting := by
  rcases is_ with rfl | rfl
  · exact inv.goto i trivial (by simp [Phase.done]) (by simp [Phase.mayStart]) (by simp)
  · exact inv.goto i trivial (by simp [Phase.done]) (by simp [Phase.mayStart]) (by simp)

theorem Runs.Inv.prepared (inv : w.Inv setting) (i : Nat) (deed : Deed) (other : deed ≠ .started ∧ deed ≠ .foundMarker) :
    (w.note i deed).Inv setting := by
  have absent (d : Deed) (j : Nat) (differ : deed ≠ d) : (j,d) ∈ (w.note i deed).log ↔ (j,d) ∈ w.log := by
    simp [Runs.note,Ne.symm differ]
  refine ⟨inv.owns,fun j d in_ => mem_cons_of_mem _ (inv.done j d in_),fun j open_ => ?_,inv.quiet,fun j started => ?_,
    inv.sound,fun is_ => absurd is_ other.1,fun is_ => absurd is_ other.2⟩
  · rw [absent _ _ other.1,absent _ _ other.2]
    exact inv.may j open_
  · exact inv.kept j ((absent _ _ other.1).mp started)

theorem Runs.Inv.started (inv : w.Inv setting) (closed : (w.phase i).mayStart = false)
    (first : (i,Deed.started) ∉ w.log ∧ (i,Deed.foundMarker) ∉ w.log) (ready : ∀ d ∈ preparations, (i,d) ∈ w.log)
    (kept : w.disk.Kept i (setting.marker i) ∧ w.disk.Kept i (setting.evidence i)) :
    (w.note i .started).Inv setting := by
  refine ⟨inv.owns,fun j d in_ => mem_cons_of_mem _ (inv.done j d in_),fun j open_ => ?_,inv.quiet,fun j started => ?_,
    inv.sound,fun _ => ⟨ready,first⟩,by simp⟩
  · have differ : j ≠ i := by
      rintro rfl
      have open_ : (w.phase j).mayStart = true := open_
      simp [closed] at open_
    simpa [Runs.note,differ] using inv.may j open_
  · simp only [Runs.note,mem_cons,Prod.mk.injEq,and_true] at started
    rcases started with rfl | earlier
    · exact kept
    · exact inv.kept j earlier

theorem Runs.Inv.found (inv : w.Inv setting) {i : Nat} (closed : (w.phase i).mayStart = false) (first : (i,Deed.started) ∉ w.log) :
    (w.note i .foundMarker).Inv setting := by
  refine ⟨inv.owns,fun j d in_ => mem_cons_of_mem _ (inv.done j d in_),fun j open_ => ?_,inv.quiet,fun j started => ?_,
    inv.sound,by simp,fun _ => first⟩
  · have differ : j ≠ i := by
      rintro rfl
      have open_ : (w.phase j).mayStart = true := open_
      simp [closed] at open_
    simpa [Runs.note,differ] using inv.may j open_
  · simp only [Runs.note,mem_cons,Prod.mk.injEq,reduceCtorEq,and_false,false_or] at started
    exact inv.kept j started

/-! ## One step -/

variable [DecidableEq ν]

theorem Runs.Inv.advance {i : Nat} (inv : w.Inv setting) (took : w.advance setting i = some w') : w'.Inv setting := by
  have owns := inv.owns i
  have done := inv.done i
  have may := inv.may i
  have refused (here : (w.phase i).mayStart = true) : ((w.goto i .over).note i .foundMarker).Inv setting :=
    (inv.ends i (.inr rfl)).found (by simp [Runs.goto,Phase.mayStart]) (may here).1
  simp only [Runs.advance] at took
  split at took
  · rename_i here
    cases took
    exact inv.goto i trivial (by simp [Phase.done]) (by simp [here,Phase.mayStart]) (by simp)
  · rename_i here
    split at took <;> cases took
    · exact refused (by simp [here,Phase.mayStart])
    · exact inv.goto i trivial (by simp [Phase.done]) (by simp [here,Phase.mayStart]) (by simp)
  · rename_i here
    split at took <;> cases took
    · exact inv.ends i (.inr rfl)
    · exact inv.goto i trivial (by simp [Phase.done]) (by simp [here,Phase.mayStart]) (by simp)
  · rename_i here
    cases took
    exact inv.goto i trivial (by simp [Phase.done]) (by simp [here,Phase.mayStart]) (by simp)
  · rename_i here
    split at took <;> cases took
    · rename_i disk created
      have next := (inv.disk (Disk.grows_createNew created)).prepared i .createdMarker (by simp)
      exact next.goto i (Disk.made_createNew created) (by simp [Phase.done,Runs.note]) (by simp [Runs.note,here,Phase.mayStart]) (by simp)
    · exact refused (by simp [here,Phase.mayStart])
  · rename_i here
    cases took
    rw [here] at owns done
    rcases (setting.plan i).kind.written_cases with is_ | is_ <;> rw [is_]
    · exact inv.ends i (.inr rfl)
    · exact inv.goto i owns done (by simp [here,Phase.mayStart]) (by simp)
  · rename_i here
    cases took
    rw [here] at owns done
    have next := (inv.disk (w.disk.grows_sync (setting.marker i))).prepared i .syncedMarker (by simp)
    exact next.goto i owns.sync_kept (by simpa [Phase.done,Runs.note] using done) (by simp [Runs.note,here,Phase.mayStart])
      (by simp)
  · rename_i here
    cases took
    rw [here] at owns done
    rcases (setting.plan i).kind.measured_cases with is_ | is_ <;> rw [is_]
    · exact inv.goto i owns done (by simp [here,Phase.mayStart]) (by simp)
    · exact inv.goto i owns done (by simp [here,Phase.mayStart]) (by simp)
  · rename_i here
    rw [here] at owns done
    split at took <;> cases took
    · rename_i disk created
      have grows := (Disk.grows_createNew created).trans (disk.grows_sync (setting.evidence i))
      exact (inv.disk grows).goto i (grows.kept _ _ owns) done (by simp [here,Phase.mayStart]) (by simp)
    · exact inv.ends i (.inr rfl)
  · rename_i here
    rw [here] at owns done
    split at took <;> cases took
    · rename_i disk created
      have grows := Disk.grows_createNew created
      have next := (inv.disk grows).prepared i .createdEvidence (by simp)
      exact next.goto i ⟨grows.kept _ _ owns,Disk.made_createNew created⟩ (by simpa [Phase.done,Runs.note] using done)
        (by simp [Runs.note,here,Phase.mayStart]) (by simp)
    · exact inv.ends i (.inr rfl)
  · rename_i here
    cases took
    rw [here] at owns done
    have grows := w.disk.grows_sync (setting.evidence i)
    have next := (inv.disk grows).prepared i .syncedEvidence (by simp)
    have both := And.intro (grows.kept _ _ owns.1) owns.2.sync_kept
    have all : ∀ d ∈ preparations, (i,d) ∈ (({ w with disk := w.disk.sync (setting.evidence i) } : Runs ν).note i
        .syncedEvidence).log := by simpa [Phase.done,Runs.note,preparations] using done
    rcases (setting.plan i).kind.reserved_cases with is_ | is_ <;> rw [is_]
    · exact next.goto i both all (by simp [Runs.note,here,Phase.mayStart]) (by
        rintro _ ⟨⟩
        exact fun _ => rfl)
    · exact next.goto i both all (by simp [Runs.note,here,Phase.mayStart]) (by simp)
  · rename_i here
    cases took
    rw [here] at owns done
    exact (inv.ends i (.inl rfl)).started (by simp [Runs.goto,Phase.mayStart]) (may (by simp [here,Phase.mayStart])) done owns
  · cases took
    exact inv.ends i (.inr rfl)
  · contradiction
  · contradiction

theorem Runs.Inv.refuse (inv : w.Inv setting) (took : w.refuse i = some w') : w'.Inv setting := by
  simp only [Runs.refuse] at took
  split at took <;> cases took
  · exact inv.ends i (.inl rfl)
  · exact inv.ends i (.inr rfl)

theorem Runs.Inv.child {i : Nat} {event : Event} {w' : Runs ν} (inv : w.Inv setting)
    (took : w.child setting i event = some w') : w'.Inv setting := by
  have owns := inv.owns i
  have done := inv.done i
  have may := inv.may i
  simp only [Runs.child] at took
  split at took
  · rename_i exec here
    split at took
    · rename_i exec' stepped
      cases took
      rw [here] at owns done may
      obtain ⟨quiet,stays⟩ := (inv.quiet i exec here).step stepped
      have next : (w.goto i (.executing exec')).Inv setting := by
        refine inv.goto i owns done ?_ ?_
        · simp only [here,Phase.mayStart,Bool.not_eq_true']
          intro none_
          cases is_ : exec.spawned with
          | false => rfl
          | true => simp [stays is_] at none_
        · rintro _ ⟨⟩
          exact quiet
      split
      · rename_i comes
        simp only [Bool.and_eq_true,Bool.not_eq_true'] at comes
        exact next.started (by simp [Runs.goto,Phase.mayStart,comes.1]) (may (by simp [Phase.mayStart,comes.2])) done owns
      · exact next
    · contradiction
  · contradiction

theorem Phase.afterPowerLoss_cases (phase : Phase) :
    phase.afterPowerLoss = .over ∨ (phase = .loading ∧ phase.afterPowerLoss = .loading) := by
  cases phase <;> simp [Phase.afterPowerLoss]

theorem Runs.Inv.powerLoss (inv : w.Inv setting) (survives : ν → Bool) :
    Runs.Inv setting { w with disk := w.disk.lose survives, phase := fun i => (w.phase i).afterPowerLoss } := by
  refine ⟨fun i => ?_,fun i => ?_,fun i => ?_,fun i exec => ?_,fun i started => ?_,inv.sound⟩
  · rcases (w.phase i).afterPowerLoss_cases with is_ | ⟨_,is_⟩ <;> simp only [is_,Phase.Owns]
  · rcases (w.phase i).afterPowerLoss_cases with is_ | ⟨_,is_⟩ <;> simp [is_,Phase.done]
  · rcases (w.phase i).afterPowerLoss_cases with is_ | ⟨here,is_⟩
    · simp [is_,Phase.mayStart]
    · exact fun _ => inv.may i (by simp [here,Phase.mayStart])
  · rcases (w.phase i).afterPowerLoss_cases with is_ | ⟨_,is_⟩ <;> simp [is_]
  · exact ⟨(inv.kept i started).1.lose survives,(inv.kept i started).2.lose survives⟩

theorem Runs.Inv.step {w' : Runs ν} {action : Action ν} (inv : w.Inv setting) (took : w.step setting action = some w') :
    w'.Inv setting := by
  cases action with
  | advance i => exact inv.advance took
  | refuse i => exact inv.refuse took
  | child i event => exact inv.child took
  | leave i =>
    simp only [Runs.step] at took
    split at took <;> cases took
    exact inv.ends i (.inl rfl)
  | crash i =>
    cases took
    exact inv.ends i (.inr rfl)
  | settle name =>
    cases took
    exact inv.disk (w.disk.grows_sync name)
  | powerLoss survives =>
    cases took
    exact inv.powerLoss survives

theorem Runs.Reached.inv {disk : Disk ν Nat} (run : Runs.Reached setting disk w) : w.Inv setting := by
  induction run with
  | start => exact ⟨fun _ => trivial,by simp [Phase.done],by simp,by simp,by simp,trivial⟩
  | step before took ih => exact ih.step took

/-! ## What the record shows -/

/-- A start in a sound record, with all that stands before it. -/
theorem Sound.split {log before after : List (Nat × Deed)} {i : Nat} {deed : Deed} (sound : Sound log)
    (is_ : log = after ++ (i,deed) :: before) : Sound ((i,deed) :: before) := by
  subst is_
  induction after with
  | nil => exact sound
  | cons e after ih => exact ih sound.1

theorem Sound.once (sound : Sound log) (i : Nat) : log.count (i,.started) ≤ 1 := by
  induction log with
  | nil => simp
  | cons e rest ih =>
    obtain ⟨j,deed⟩ := e
    obtain ⟨before,start,_⟩ := sound
    by_cases same : (j,deed) = (i,.started)
    · cases same
      have none_ := count_eq_zero.mpr (start rfl).2.1
      simp [none_]
    · rw [count_cons_of_ne same]
      exact ih before

theorem Sound.found {log : List (Nat × Deed)} (sound : Sound log) {i : Nat} (found : (i,Deed.foundMarker) ∈ log) :
    (i,Deed.started) ∉ log := by
  induction log with
  | nil => simp
  | cons e rest ih =>
    obtain ⟨j,deed⟩ := e
    obtain ⟨before,start,mark⟩ := sound
    simp only [mem_cons,Prod.mk.injEq,not_or] at found ⊢
    rcases found with ⟨rfl,rfl⟩ | earlier
    · exact ⟨by simp,mark rfl⟩
    · refine ⟨?_,ih before earlier⟩
      rintro ⟨rfl,rfl⟩
      exact (start rfl).2.2 earlier

/-- Over any disk, with runs of either kind in any order, stopped anywhere and the power going at any time: a command is
started at most once for a request; its run created the marker and the evidence file and saw both written out
before, and they are there for good; and a run that finds the marker starts nothing. -/
theorem one_shot (setting : Setting ν) (disk : Disk ν Nat) (w : Runs ν) (run : Runs.Reached setting disk w) :
    (∀ i, w.log.count (i,.started) ≤ 1) ∧
    (∀ i j, (i,Deed.started) ∈ w.log → (j,Deed.started) ∈ w.log →
      (setting.plan i).request = (setting.plan j).request → i = j) ∧
    (∀ i before after, w.log = after ++ (i,.started) :: before → ∀ deed ∈ preparations, (i,deed) ∈ before) ∧
    (∀ i, (i,Deed.started) ∈ w.log → w.disk.Kept i (setting.marker i) ∧ w.disk.Kept i (setting.evidence i)) ∧
    (∀ i, (i,Deed.foundMarker) ∈ w.log → (i,Deed.started) ∉ w.log) := by
  have inv := run.inv
  refine ⟨inv.sound.once,fun i j first second same => ?_,fun i before after is_ => ?_,inv.kept,fun i => inv.sound.found⟩
  · have here := (inv.kept i first).1.made
    have there := (inv.kept j second).1.made
    have marker : setting.marker i = setting.marker j := by rw [Setting.marker,Setting.marker,same]
    rw [marker] at here
    exact here.unique there
  · exact ((inv.sound.split is_).2.1 rfl).1

end worlds

def Runs.play (setting : Setting String) : List (Action String) → Runs String → Option (Runs String)
  | [],w => some w
  | action :: rest,w => (w.step setting action).bind (play setting rest)

theorem Runs.Reached.play {disk : Disk String Nat} (actions : List (Action String))
 (before : Runs.Reached setting disk w) (took : w.play setting actions = some w') :
    Runs.Reached setting disk w' := by
  induction actions generalizing w with
  | nil =>
    cases took
    exact before
  | cons action rest ih =>
    obtain ⟨next,taken,later⟩ := Option.bind_eq_some_iff.mp took
    exact ih (before.step taken) later

/-- Two runs of one request. -/
def sampleSetting : Setting String := ⟨fun _ => ⟨sampleRequest,.sidecar .none⟩,id⟩

/-- Both see no marker; the first creates it and starts the command, the second then finds it. -/
def sampleRace : List (Action String) :=
  [.advance 0,.advance 1,.advance 0,.advance 1,.advance 0,.advance 1,.advance 0,.advance 1,.advance 0,.advance 0,
    .advance 0,.advance 0,.advance 0,.advance 0,.advance 1,.child 0 (.clock (.ok sampleTime)),.child 0 (.job (.ok ())),
    .child 0 (.spawn (.ok ())),.powerLoss fun _ => false]

theorem one_shot_race : ∃ w : Runs String, (0,Deed.started) ∈ w.log ∧ (1,Deed.foundMarker) ∈ w.log ∧
    (∀ i, w.log.count (i,.started) ≤ 1) ∧ (1,Deed.started) ∉ w.log := by
  obtain ⟨w,took⟩ := Option.isSome_iff_exists.mp (show ((Runs.play sampleSetting sampleRace
    { disk := fun _ => none }).isSome = true) from rfl)
  have log : w.log = [(0,.started),(1,.foundMarker),(0,.syncedEvidence),(0,.createdEvidence),(0,.syncedMarker),
      (0,.createdMarker)] := by
    have read := congrArg (Option.map Runs.log) took
    exact (Option.some.inj read).symm
  have all := one_shot sampleSetting (fun _ => none) w (Runs.Reached.play sampleRace .start took)
  have second : (1,Deed.foundMarker) ∈ w.log := by simp [log]
  exact ⟨w,by simp [log],second,all.1,all.2.2.2.2 1 second⟩

end Neurobro.Runner
