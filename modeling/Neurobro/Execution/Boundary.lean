import Neurobro.Execution.Child
import Neurobro.Execution.Request

/-! The end of `run_process_boundary`: from the execution of the child to its evidence
and the acknowledgement. -/
namespace Neurobro.Runner

open Json

/-- What has been loaded before anything is written. -/
structure Task where
  host : Host
  requestBytes : Bytes
  request : ProcessRequest
  stdinBytes : Bytes
  fault : FaultMode
  loaded : loadRequest host requestBytes = .ok (request,stdinBytes)

/-- Why `run_process_boundary` ends with an error once its files are reserved. -/
inductive Failure where
  | execute (error : String)
  | invariants (error : String)
  | canonical (error : String)
  | oversized
  | write (error : String)
  | acknowledge (error : String)

inductive Stage where
  | executing
  | writing (evidence : ProcessEvidence)
  | acknowledging (evidence : ProcessEvidence)
  | ended (result : Except Failure ProcessEvidence)

structure Boundary where
  exec : Exec := {}
  stage : Stage := .executing

inductive Turn where
  | child (event : Event)
  | collect
  | write (result : Except HostError Unit)
  | acknowledge (result : Except HostError Unit)

def Task.evidence (task : Task) (outcome : ProcessOutcome) : ProcessEvidence :=
  evidenceOf task.host task.request task.requestBytes outcome

/-- The checks between an outcome and the evidence file. -/
def Task.conclude (task : Task) (outcome : ProcessOutcome) : Stage :=
  match validateEvidenceInvariants (task.evidence outcome),canonicalJsonBytes (task.evidence outcome).value with
  | .error error,_ => .ended (.error (.invariants error))
  | .ok _,.error error => .ended (.error (.canonical error))
  | .ok _,.ok text =>
    if evidenceBytesMax < text.utf8ByteSize then .ended (.error .oversized) else .writing (task.evidence outcome)

def Boundary.collect (task : Task) (b : Boundary) : Option Boundary :=
  match b.stage,b.exec.main with
  | .executing,.returned (.error error) => some { b with stage := .ended (.error (.execute error)) }
  | .executing,.returned (.ok outcome) => some { b with stage := task.conclude outcome }
  | _,_ => none

/-- Writing the evidence file: its text, the flush, the size and the bytes read back. -/
def Boundary.write (b : Boundary) (result : Except HostError Unit) : Option Boundary :=
  match b.stage,result with
  | .writing evidence,.ok _ => some { b with stage := .acknowledging evidence }
  | .writing _,.error error => some { b with stage := .ended (.error (.write error.text)) }
  | _,_ => none

def Boundary.acknowledge (b : Boundary) (result : Except HostError Unit) : Option Boundary :=
  match b.stage,result with
  | .acknowledging evidence,.ok _ => some { b with stage := .ended (.ok evidence) }
  | .acknowledging _,.error error => some { b with stage := .ended (.error (.acknowledge error.text)) }
  | _,_ => none

def Boundary.step (task : Task) (b : Boundary) : Turn → Option Boundary
  | .child event => (b.exec.step task.fault event).map fun exec => { b with exec }
  | .collect => b.collect task
  | .write result => b.write result
  | .acknowledge result => b.acknowledge result

/-- What a run leads to whose steps are all allowed. -/
inductive Reached (task : Task) (allowed : Boundary → Turn → Prop) : Boundary → Prop where
  | start : Reached task allowed {}
  | step {b b' : Boundary} {turn : Turn} (before : Reached task allowed b) (may : allowed b turn)
      (taken : b.step task turn = some b') : Reached task allowed b'

/-! ## What goes wrong -/

/-- An exit code has been taken for good: no override, and the input was written. -/
def Main.exits (stdin : Writer) : Main → Bool
  | .joiningStdin none known => (known.bind ExitStatus.code).isSome && stdin = .ended true
  | .joiningStdout none known stdinOk => (known.bind ExitStatus.code).isSome && stdinOk
  | .joiningStderr none known stdinOk _ => (known.bind ExitStatus.code).isSome && stdinOk
  | _ => false

/-- A reader has overrun its cap beside an exit code that was taken. -/
def Exec.torn (s : Exec) : Bool := s.main.exits s.stdin && (s.stdout.exceeded || s.stderr.exceeded)

/-- A failure of the platform that the main thread only passes on, once there is a child. -/
def Exec.fatal (fault : FaultMode) (s : Exec) : Event → Bool
  | .clock (.error _) => s.spawned
  | .kill (.error _) =>
    match s.main with
    | .terminating _ => true
    | .killingUnassigned _ => fault.unassigned
    | _ => false
  | .wait (.error _) =>
    match s.main with
    | .waiting _ => true
    | .waitingUnassigned _ => fault.unassigned
    | _ => false
  | .stdoutRead (.error _) | .stderrRead (.error _) => true
  | _ => false

/-- A step that keeps a started command from leaving evidence. -/
def Boundary.breaks (task : Task) (b : Boundary) : Turn → Bool
  | .child event => b.exec.torn || b.exec.fatal task.fault event
  | .acknowledge (.error _) => true
  | _ => false

end Neurobro.Runner
