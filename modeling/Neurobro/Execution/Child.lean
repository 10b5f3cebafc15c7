import Neurobro.Execution.Evidence

/-! The started command and what watches it. The main thread, the two readers of its
output and the writer of its input take their steps in any order; what the platform
answers comes with each step. -/
namespace Neurobro.Runner

/-- An error text of the platform; the buffer it is formatted in bounds it. -/
structure HostError where
  text : String
  short : text.utf8ByteSize ≤ 65536

structure ExitStatus where
  code : Option Int32
  deriving DecidableEq

/-- What the system clock reads, in the words of its record. -/
structure SystemTime where
  year : UInt16
  month : UInt16
  day : UInt16
  hour : UInt16
  minute : UInt16
  second : UInt16
  milliseconds : UInt16
  deriving DecidableEq

/-- A decimal number with zeros before it, as many as its width asks for. -/
def padded (width n : Nat) : String := String.ofList (List.replicate (width - n.repr.toList.length) '0' ++ n.repr.toList)

def utcText (t : SystemTime) : String :=
  padded 4 t.year.toNat ++ "-" ++ padded 2 t.month.toNat ++ "-" ++ padded 2 t.day.toNat ++ "T" ++
    padded 2 t.hour.toNat ++ ":" ++ padded 2 t.minute.toNat ++ ":" ++ padded 2 t.second.toNat ++ "." ++
    padded 3 t.milliseconds.toNat ++ "Z"

inductive FaultMode where
  | none | markerFlushFailure | evidenceCreateRace | evidenceWriteFailure | evidenceFlushFailure
  | evidenceReadbackFailure | truncatedEvidence | corruptAck | swallowAck | spawnRefusal | jobCreateRefusal
  | resourceControlRefusal | unassignedKillUncertainty | unassignedWaitUncertainty | resumeRefusal
  | startUncertainty | waitUncertainty
  deriving DecidableEq

/-! ## The readers -/

inductive Reader where
  | idle
  | reading (captured : Bytes)
  | ended (result : Except String CapturedStream)

/-- One captured stream: its reader and the flag that the main thread polls. -/
structure Capture where
  reader : Reader := .idle
  exceeded : Bool := false

/-- What one `read` puts into the buffer; at the end of the stream it is empty. -/
structure Chunk where
  bytes : Bytes
  short : bytes.length ≤ 8192

/-- What the reader keeps of a chunk. -/
def retained (maximum : Nat) (captured chunk : Bytes) : Nat := min chunk.length (maximum - captured.length)

/-- One `read` of `spawn_capture` and what it does with the chunk. -/
def Capture.read (maximum : Nat) (capture : Capture) (chunk : Except HostError Chunk) : Option Capture :=
  match capture.reader,chunk with
  | .reading _,.error error =>
    some { capture with reader := .ended (.error ("stream-read-failed: " ++ error.text)) }
  | .reading captured,.ok chunk =>
    if chunk.bytes = [] then
      some { capture with reader := .ended (.ok ⟨captured,!capture.exceeded,capture.exceeded⟩) }
    else if retained maximum captured chunk.bytes < chunk.bytes.length then
      some
        { reader := .ended (.ok (incompleteStream
            (captured ++ chunk.bytes.take (retained maximum captured chunk.bytes))))
          exceeded := true }
    else some { capture with reader := .reading (captured ++ chunk.bytes.take (retained maximum captured chunk.bytes)) }
  | _,_ => none

inductive Writer where
  | idle
  | writing
  | ended (ok : Bool)
  deriving DecidableEq

/-! ## The main thread -/

/-- Why the main thread terminates the child and waits for its end. -/
inductive Settling where
  | refuse (error : HostError)
  | uncertain (detail : String)
  | overridden (state : TerminalState)

inductive Main where
  | begin
  | creatingJob
  | spawning
  | assigning
  | killingUnassigned (error : HostError)
  | waitingUnassigned (error : HostError)
  | resuming
  | terminating (why : Settling)
  | waiting (why : Settling)
  | takingPipes
  | checkingStdout
  | checkingStderr
  | checkingDeadline
  | tryingWait
  | joiningStdin (override : Option TerminalState) (known : Option ExitStatus)
  | joiningStdout (override : Option TerminalState) (known : Option ExitStatus) (stdinOk : Bool)
  | joiningStderr (override : Option TerminalState) (known : Option ExitStatus) (stdinOk : Bool)
      (standardOutput : CapturedStream)
  | closing (outcome : ProcessOutcome)
  | returned (result : Except String ProcessOutcome)

structure Exec where
  main : Main := .begin
  startedUtc : String := ""
  spawned : Bool := false
  stdout : Capture := {}
  stderr : Capture := {}
  stdin : Writer := .idle

/-- An outcome without an exit code; its end is stamped when it is closed. -/
def Exec.unresolved (s : Exec) (processStartCount : Nat) (terminalState : TerminalState)
    (standardOutput standardError : CapturedStream) : ProcessOutcome where
  startedUtc := s.startedUtc
  finishedUtc := ""
  processStartCount
  terminalState
  exitCodeKnown := false
  exitCode := none
  standardOutput
  standardError

def Exec.resourceControlRefusal (s : Exec) (processStartCount : Nat) (error : HostError) : ProcessOutcome :=
  s.unresolved processStartCount .resourceControlRefused (completeStream [])
    (completeStream (utf8 ("resource-control-refused: " ++ error.text)))

def Exec.unknownPreExecution (s : Exec) (detail : String) : ProcessOutcome :=
  s.unresolved 1 .unknown (incompleteStream []) (incompleteStream (utf8 detail))

/-- The classification at the end of `execute_child`. -/
def classify (override : Option TerminalState) (known : Option ExitStatus) (stdinOk : Bool) :
    TerminalState × Option Int32 :=
  match if !stdinOk && override.isNone then some .unknown else override with
  | some state => (state,none)
  | none =>
    match known.bind ExitStatus.code with
    | some code => (.knownExit,some code)
    | none => (.unknown,none)

def Exec.classified (s : Exec) (override : Option TerminalState) (known : Option ExitStatus) (stdinOk : Bool)
    (standardOutput standardError : CapturedStream) : ProcessOutcome where
  startedUtc := s.startedUtc
  finishedUtc := ""
  processStartCount := 1
  terminalState := (classify override known stdinOk).1
  exitCodeKnown := (classify override known stdinOk).2.isSome
  exitCode := (classify override known stdinOk).2
  standardOutput
  standardError

inductive Event where
  | clock (reading : Except HostError SystemTime)
  | job (result : Except HostError Unit)
  | spawn (result : Except HostError Unit)
  | assign (result : Except HostError Unit)
  | kill (result : Except HostError Unit)
  | wait (result : Except HostError ExitStatus)
  | resume (result : Except HostError Unit)
  | look
  | now (late : Bool)
  | tryWait (result : Except HostError (Option ExitStatus))
  | stdoutRead (chunk : Except HostError Chunk)
  | stderrRead (chunk : Except HostError Chunk)
  | stdinEnds (ok : Bool)

def Exec.goto (s : Exec) (main : Main) : Exec := { s with main }

def Exec.fail (s : Exec) (error : String) : Exec := s.goto (.returned (.error error))

/-- The outcome that a test puts in the place of the whole execution. -/
def syntheticSpawnRefusal (t : SystemTime) : ProcessOutcome where
  startedUtc := utcText t
  finishedUtc := utcText t
  processStartCount := 0
  terminalState := .spawnRefused
  exitCodeKnown := false
  exitCode := none
  standardOutput := completeStream []
  standardError := completeStream (utf8 "synthetic-spawn-refusal")

/-- `utc_now`, at the start and at the end. -/
def Exec.clock (fault : FaultMode) (s : Exec) (reading : Except HostError SystemTime) : Option Exec :=
  match s.main,reading with
  | .begin,.ok t =>
    if fault = .spawnRefusal then some (s.goto (.returned (.ok (syntheticSpawnRefusal t))))
    else some { s with main := .creatingJob, startedUtc := utcText t }
  | .begin,.error error => some (s.fail ("utc-clock-failed: " ++ error.text))
  | .closing outcome,.ok t => some (s.goto (.returned (.ok { outcome with finishedUtc := utcText t })))
  | .closing _,.error error => some (s.fail ("utc-clock-failed: " ++ error.text))
  | _,_ => none

/-- An answer, or the one that a test puts in its place. -/
def injected (fault : Bool) (error : HostError) (result : Except HostError Unit) : Except HostError Unit :=
  if fault then .error error else result

def syntheticJobRefusal : HostError := ⟨"synthetic-job-create-refusal",by decide⟩
def syntheticResourceRefusal : HostError := ⟨"synthetic-resource-control-refusal",by decide⟩
def syntheticResumeRefusal : HostError := ⟨"synthetic-resume-refusal",by decide⟩

def Exec.job (fault : FaultMode) (s : Exec) (result : Except HostError Unit) : Option Exec :=
  match s.main,injected (fault = .jobCreateRefusal) syntheticJobRefusal result with
  | .creatingJob,.ok _ => some (s.goto .spawning)
  | .creatingJob,.error error => some (s.goto (.closing (s.resourceControlRefusal 0 error)))
  | _,_ => none

def Exec.spawn (s : Exec) (result : Except HostError Unit) : Option Exec :=
  match s.main,result with
  | .spawning,.ok _ => some { s with main := .assigning, spawned := true }
  | .spawning,.error error =>
    some (s.goto (.closing (s.unresolved 0 .spawnRefused (completeStream [])
      (completeStream (utf8 ("spawn-refused: " ++ error.text))))))
  | _,_ => none

/-- The child could not be shown to have ended before it ran. -/
def FaultMode.unassigned (fault : FaultMode) : Bool :=
  fault = .unassignedKillUncertainty || fault = .unassignedWaitUncertainty

def Exec.assign (fault : FaultMode) (s : Exec) (result : Except HostError Unit) : Option Exec :=
  match s.main,injected (fault = .resourceControlRefusal || fault.unassigned) syntheticResourceRefusal result with
  | .assigning,.ok _ =>
    some (s.goto (if fault = .resumeRefusal then .terminating (.refuse syntheticResumeRefusal) else .resuming))
  | .assigning,.error error => some (s.goto (.killingUnassigned error))
  | _,_ => none

def Exec.resume (fault : FaultMode) (s : Exec) (result : Except HostError Unit) : Option Exec :=
  match s.main,result with
  | .resuming,.ok _ =>
    some (s.goto (if fault = .startUncertainty then .terminating (.uncertain "synthetic-start-uncertainty")
      else if fault = .waitUncertainty then .terminating (.uncertain "synthetic-wait-uncertainty")
      else .takingPipes))
  | .resuming,.error error => some (s.goto (.terminating (.refuse error)))
  | _,_ => none

def Exec.kill (fault : FaultMode) (s : Exec) (result : Except HostError Unit) : Option Exec :=
  match s.main,result with
  | .terminating why,.ok _ => some (s.goto (.waiting why))
  | .terminating _,.error error => some (s.fail ("owned-child-termination-failed: " ++ error.text))
  | .killingUnassigned error,.ok _ => some (s.goto (.waitingUnassigned error))
  | .killingUnassigned error,.error killError =>
    if fault.unassigned then some (s.fail ("fixture-safety-kill-failed: " ++ killError.text))
    else some (s.goto (.closing (s.unknownPreExecution ("resource-control-refused: " ++ error.text ++
      "; unassigned-child-kill-unknown: " ++ killError.text))))
  | _,_ => none

def Exec.settled (s : Exec) (status : ExitStatus) : Settling → Main
  | .refuse error => .closing (s.resourceControlRefusal 1 error)
  | .uncertain detail => .closing (s.unresolved 1 .unknown (completeStream []) (completeStream (utf8 detail)))
  | .overridden state => .joiningStdin (some state) (some status)

def FaultMode.injectedDetail (fault : FaultMode) : String :=
  if fault = .unassignedKillUncertainty then "synthetic-unassigned-child-kill-result-unknown"
  else "synthetic-unassigned-child-wait-result-unknown"

/-- `wait_for_owned_child`: the status, or an error once five seconds have passed. -/
def Exec.wait (fault : FaultMode) (s : Exec) (result : Except HostError ExitStatus) : Option Exec :=
  match s.main,result with
  | .waiting why,.ok status => some (s.goto (s.settled status why))
  | .waiting _,.error error => some (s.fail error.text)
  | .waitingUnassigned error,.ok _ =>
    if fault.unassigned then
      some (s.goto (.closing (s.unknownPreExecution ("resource-control-refused: " ++ error.text ++ "; " ++
        fault.injectedDetail ++ "; fixture-safety-teardown-observed"))))
    else some (s.goto (.closing (s.resourceControlRefusal 1 error)))
  | .waitingUnassigned error,.error waitError =>
    if fault.unassigned then some (s.fail waitError.text)
    else some (s.goto (.closing (s.unknownPreExecution ("resource-control-refused: " ++ error.text ++
      "; unassigned-child-wait-unknown: " ++ waitError.text))))
  | _,_ => none

/-- Steps of the main thread that ask nothing of the platform. -/
def Exec.look (s : Exec) : Option Exec :=
  match s.main with
  | .takingPipes =>
    some { s with
      main := .checkingStdout
      stdout := { reader := .reading [] }
      stderr := { reader := .reading [] }
      stdin := .writing }
  | .checkingStdout =>
    some (s.goto (if s.stdout.exceeded then .terminating (.overridden .stdoutCapKilled) else .checkingStderr))
  | .checkingStderr =>
    some (s.goto (if s.stderr.exceeded then .terminating (.overridden .stderrCapKilled) else .checkingDeadline))
  | .joiningStdin override known =>
    match s.stdin with
    | .ended ok => some (s.goto (.joiningStdout override known ok))
    | _ => none
  | .joiningStdout override known stdinOk =>
    match s.stdout.reader with
    | .ended (.ok stream) => some (s.goto (.joiningStderr override known stdinOk stream))
    | .ended (.error error) => some (s.fail error)
    | _ => none
  | .joiningStderr override known stdinOk standardOutput =>
    match s.stderr.reader with
    | .ended (.ok stream) =>
      some (s.goto (.closing (s.classified override known stdinOk standardOutput stream)))
    | .ended (.error error) => some (s.fail error)
    | _ => none
  | _ => none

def Exec.now (s : Exec) (late : Bool) : Option Exec :=
  match s.main with
  | .checkingDeadline =>
    some (s.goto (if late then .terminating (.overridden .deadlineKilled) else .tryingWait))
  | _ => none

def Exec.tryWait (s : Exec) (result : Except HostError (Option ExitStatus)) : Option Exec :=
  match s.main,result with
  | .tryingWait,.ok (some status) => some (s.goto (.joiningStdin none (some status)))
  | .tryingWait,.ok none => some (s.goto .checkingStdout)
  | .tryingWait,.error _ => some (s.goto (.terminating (.overridden .unknown)))
  | _,_ => none

def Exec.step (fault : FaultMode) (s : Exec) : Event → Option Exec
  | .clock reading => s.clock fault reading
  | .job result => s.job fault result
  | .spawn result => s.spawn result
  | .assign result => s.assign fault result
  | .kill result => s.kill fault result
  | .wait result => s.wait fault result
  | .resume result => s.resume fault result
  | .look => s.look
  | .now late => s.now late
  | .tryWait result => s.tryWait result
  | .stdoutRead chunk => (s.stdout.read stdoutBytesMax chunk).map fun stdout => { s with stdout }
  | .stderrRead chunk => (s.stderr.read stderrBytesMax chunk).map fun stderr => { s with stderr }
  | .stdinEnds ok => if s.stdin = .writing then some { s with stdin := .ended ok } else none

end Neurobro.Runner
