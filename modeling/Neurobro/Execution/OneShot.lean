import Neurobro.Data.Disk
import Neurobro.Execution.Child

/-! Runs of the sidecar and of its TypeScript baseline around one disk: what each does
before a command is started. Any of them can be stopped at any moment, the power can go,
and nothing takes the files away. -/
namespace Neurobro.Runner

inductive Kind where
  | sidecar (fault : FaultMode)
  | baseline
  deriving DecidableEq

structure Plan where
  request : ProcessRequest
  kind : Kind

/-- What a run does next. -/
inductive Phase where
  | loading
  | lookingForMarker
  | lookingForEvidence
  | stamping
  | creatingMarker
  | writingMarker
  | syncingMarker
  | measuringMarker
  | racing
  | creatingEvidence
  | syncingEvidence
  | starting
  | executing (exec : Exec)
  | finishing
  | over

/-- What is kept in the record of all runs. -/
inductive Deed where
  | createdMarker | syncedMarker | createdEvidence | syncedEvidence | started | foundMarker
  deriving DecidableEq

section worlds
variable {ν : Type} [DecidableEq ν]

/-- Runs are numbered; the latest deed comes first. -/
structure Runs (ν : Type) where
  disk : Disk ν Nat
  phase : Nat → Phase := fun _ => .loading
  log : List (Nat × Deed) := []

/-- The plans of all runs, and which file a path leads to. -/
structure Setting (ν : Type) where
  plan : Nat → Plan
  file : String → ν

def Setting.marker (setting : Setting ν) (i : Nat) : ν := setting.file (setting.plan i).request.attemptMarker.path

def Setting.evidence (setting : Setting ν) (i : Nat) : ν := setting.file (setting.plan i).request.evidence.path

def Runs.goto (w : Runs ν) (i : Nat) (phase : Phase) : Runs ν :=
  { w with phase := fun j => if j = i then phase else w.phase j }

def Runs.note (w : Runs ν) (i : Nat) (deed : Deed) : Runs ν := { w with log := (i,deed) :: w.log }

/-- After the marker has been written. -/
def Kind.written : Kind → Phase
  | .sidecar .markerFlushFailure => .over
  | _ => .syncingMarker

/-- After the marker has been measured. -/
def Kind.measured : Kind → Phase
  | .sidecar .evidenceCreateRace => .racing
  | _ => .creatingEvidence

/-- Once both files are there. -/
def Kind.reserved : Kind → Phase
  | .sidecar _ => .executing {}
  | .baseline => .starting

def Kind.fault : Kind → FaultMode
  | .sidecar fault => fault
  | .baseline => .none

/-- The next step of a run whose platform answers well. -/
def Runs.advance (setting : Setting ν) (w : Runs ν) (i : Nat) : Option (Runs ν) :=
  match w.phase i with
  | .loading => some (w.goto i .lookingForMarker)
  | .lookingForMarker =>
    match w.disk (setting.marker i) with
    | some _ => some ((w.goto i .over).note i .foundMarker)
    | none => some (w.goto i .lookingForEvidence)
  | .lookingForEvidence =>
    match w.disk (setting.evidence i) with
    | some _ => some (w.goto i .over)
    | none => some (w.goto i .stamping)
  | .stamping => some (w.goto i .creatingMarker)
  | .creatingMarker =>
    match w.disk.createNew i (setting.marker i) with
    | some disk => some (({ w with disk }.goto i .writingMarker).note i .createdMarker)
    | none => some ((w.goto i .over).note i .foundMarker)
  | .writingMarker => some (w.goto i (setting.plan i).kind.written)
  | .syncingMarker =>
    some (({ w with disk := w.disk.sync (setting.marker i) }.goto i .measuringMarker).note i .syncedMarker)
  | .measuringMarker => some (w.goto i (setting.plan i).kind.measured)
  | .racing =>
    match w.disk.createNew i (setting.evidence i) with
    | some disk => some ({ w with disk := disk.sync (setting.evidence i) }.goto i .creatingEvidence)
    | none => some (w.goto i .over)
  | .creatingEvidence =>
    match w.disk.createNew i (setting.evidence i) with
    | some disk => some (({ w with disk }.goto i .syncingEvidence).note i .createdEvidence)
    | none => some (w.goto i .over)
  | .syncingEvidence =>
    some (({ w with disk := w.disk.sync (setting.evidence i) }.goto i (setting.plan i).kind.reserved).note i .syncedEvidence)
  | .starting => some ((w.goto i .finishing).note i .started)
  | .finishing => some (w.goto i .over)
  | .executing _ | .over => none

/-- A step whose platform refuses: the run ends; only the baseline goes on to write that nothing was started. -/
def Runs.refuse (w : Runs ν) (i : Nat) : Option (Runs ν) :=
  match w.phase i with
  | .executing _ | .over => none
  | .starting => some (w.goto i .finishing)
  | _ => some (w.goto i .over)

/-- One step of the execution of a command. -/
def Runs.child (setting : Setting ν) (w : Runs ν) (i : Nat) (event : Event) : Option (Runs ν) :=
  match w.phase i with
  | .executing exec =>
    match exec.step (setting.plan i).kind.fault event with
    | some exec' =>
      some (if exec'.spawned && !exec.spawned then (w.goto i (.executing exec')).note i .started
        else w.goto i (.executing exec'))
    | none => none
  | _ => none

inductive Action (ν : Type) where
  | advance (i : Nat)
  | refuse (i : Nat)
  | child (i : Nat) (event : Event)
  /-- The sidecar has returned from the execution, or failed in it. -/
  | leave (i : Nat)
  | crash (i : Nat)
  /-- The system writes a file out of itself. -/
  | settle (name : ν)
  | powerLoss (survives : ν → Bool)

def Phase.afterPowerLoss : Phase → Phase
  | .loading => .loading
  | _ => .over

def Runs.step (setting : Setting ν) (w : Runs ν) : Action ν → Option (Runs ν)
  | .advance i => w.advance setting i
  | .refuse i => w.refuse i
  | .child i event => w.child setting i event
  | .leave i =>
    match w.phase i with
    | .executing _ => some (w.goto i .finishing)
    | _ => none
  | .crash i => some (w.goto i .over)
  | .settle name => some { w with disk := w.disk.sync name }
  | .powerLoss survives => some { w with disk := w.disk.lose survives, phase := fun i => (w.phase i).afterPowerLoss }

/-- All that runs over a disk can come to. -/
inductive Runs.Reached (setting : Setting ν) (disk : Disk ν Nat) : Runs ν → Prop where
  | start : Reached setting disk { disk }
  | step {w w' : Runs ν} {action : Action ν} (before : Reached setting disk w) (took : w.step setting action = some w') :
      Reached setting disk w'

end worlds

end Neurobro.Runner
