import Neurobro.Data.Base64
import Neurobro.Data.Json

/-! The contract of the process boundary: what is requested of the sidecar, how a child
ends, and the evidence that is left of it. -/
namespace Neurobro.Runner

def processRequestSchema : String := "decadans.rm0032.process-request.v1"
def processEvidenceSchema : String := "decadans.rm0032.process-evidence.v1"
def runnerAckSchema : String := "decadans.rm0032.runner-ack.v1"
def attemptMarkerSchema : String := "decadans.rm0032.attempt-marker.v1"
def processConsumer : String := "phase-3-wsl-hardening-coordinator"

def requestBytesMax : Nat := 65536
def stdinBytesMax : Nat := 262144
def stdoutBytesMax : Nat := 1048576
def stderrBytesMax : Nat := 1048576
def evidenceBytesMax : Nat := 3145728
def aggregateDeadlineMs : Nat := 420000
def memoryBytesMax : Nat := 268435456
def cpuPercentMax : Nat := 25

/-! ## Requests -/

structure ExecutableBinding where
  path : String
  sha256 : String
  deriving DecidableEq

structure StdinBinding where
  encoding : String
  base64 : String
  bytes : Nat
  sha256 : String
  deriving DecidableEq

structure EnvironmentBinding where
  inherit : Bool
  allowlist : List String
  values : List (String × String)
  deriving DecidableEq

structure LimitBinding where
  requestBytesMax : Nat
  stdinBytesMax : Nat
  stdoutBytesMax : Nat
  stderrBytesMax : Nat
  evidenceBytesMax : Nat
  concurrencyMax : Nat
  childProcessMax : Nat
  deadlineMs : Nat
  aggregateDeadlineMs : Nat
  memoryBytesMax : Nat
  cpuPercentMax : Nat
  deriving DecidableEq

structure ContainmentBinding where
  consumer : String
  operationRoot : String
  requireCanonicalPaths : Bool
  deriving DecidableEq

structure CreateNewPath where
  path : String
  createNew : Bool
  deriving DecidableEq

structure EvidencePath where
  path : String
  schema : String
  createNew : Bool
  deriving DecidableEq

structure ProcessRequest where
  schema : String
  operationId : String
  oneShot : Bool
  retryAuthorized : Bool
  executable : ExecutableBinding
  argv : List String
  stdin : StdinBinding
  environment : EnvironmentBinding
  limits : LimitBinding
  containment : ContainmentBinding
  attemptMarker : CreateNewPath
  evidence : EvidencePath
  deriving DecidableEq

/-! ## Outcomes and evidence -/

inductive TerminalState where
  | knownExit | spawnRefused | containmentRefused | resourceControlRefused
  | deadlineKilled | stdoutCapKilled | stderrCapKilled | unknown
  deriving DecidableEq

def TerminalState.text : TerminalState → String
  | .knownExit => "known-exit"
  | .spawnRefused => "spawn-refused"
  | .containmentRefused => "containment-refused"
  | .resourceControlRefused => "resource-control-refused"
  | .deadlineKilled => "deadline-killed"
  | .stdoutCapKilled => "stdout-cap-killed"
  | .stderrCapKilled => "stderr-cap-killed"
  | .unknown => "unknown"

structure CapturedStream where
  bytes : Bytes
  complete : Bool
  truncated : Bool
  deriving DecidableEq

def completeStream (bytes : Bytes) : CapturedStream := ⟨bytes,true,false⟩

def incompleteStream (bytes : Bytes) : CapturedStream := ⟨bytes,false,true⟩

structure ProcessOutcome where
  startedUtc : String
  finishedUtc : String
  processStartCount : Nat
  terminalState : TerminalState
  exitCodeKnown : Bool
  exitCode : Option Int32
  standardOutput : CapturedStream
  standardError : CapturedStream

structure RawStreamEvidence where
  base64 : String
  bytes : Nat
  sha256 : String
  complete : Bool
  truncated : Bool
  deriving DecidableEq

structure ProcessEvidence where
  schema : String
  requestBytes : Nat
  requestSha256 : String
  executableSha256Observed : String
  argv : List String
  stdinBytes : Nat
  stdinSha256 : String
  startedUtc : String
  finishedUtc : String
  processStartCount : Nat
  terminalState : TerminalState
  exitCodeKnown : Bool
  exitCode : Option Int32
  outputComplete : Bool
  standardOutput : RawStreamEvidence
  standardError : RawStreamEvidence
  retryPerformed : Bool
  cleanupPerformed : Bool
  deriving DecidableEq

def lowerHex (c : Char) : Bool := decide ('0' ≤ c ∧ c ≤ '9') || decide ('a' ≤ c ∧ c ≤ 'f')

/-- `^[0-9a-f]{64}$`. -/
def sha256Text (s : String) : Bool := s.toList.length = 64 && s.toList.all lowerHex

/-- The digest of the platform, which always has its sixty-four digits. -/
structure Host where
  sha256Hex : Bytes → String
  format : ∀ bytes, sha256Text (sha256Hex bytes) = true

def rawStreamEvidence (host : Host) (stream : CapturedStream) : RawStreamEvidence where
  base64 := Base64.encode stream.bytes
  bytes := stream.bytes.length
  sha256 := host.sha256Hex stream.bytes
  complete := stream.complete
  truncated := stream.truncated

/-- The evidence of an outcome, as `run_process_boundary` builds it. -/
def evidenceOf (host : Host) (request : ProcessRequest) (requestBytes : Bytes) (outcome : ProcessOutcome) :
    ProcessEvidence :=
  let standardOutput := rawStreamEvidence host outcome.standardOutput
  let standardError := rawStreamEvidence host outcome.standardError
  { schema := processEvidenceSchema
    requestBytes := requestBytes.length
    requestSha256 := host.sha256Hex requestBytes
    executableSha256Observed := request.executable.sha256
    argv := request.argv
    stdinBytes := request.stdin.bytes
    stdinSha256 := request.stdin.sha256
    startedUtc := outcome.startedUtc
    finishedUtc := outcome.finishedUtc
    processStartCount := outcome.processStartCount
    terminalState := outcome.terminalState
    exitCodeKnown := outcome.exitCodeKnown
    exitCode := outcome.exitCode
    outputComplete := standardOutput.complete && standardError.complete
    standardOutput
    standardError
    retryPerformed := false
    cleanupPerformed := false }

/-- Which numbers of starts go with a way to end. -/
def TerminalState.starts : TerminalState → Nat → Bool
  | .knownExit,_ => true
  | .spawnRefused,n | .containmentRefused,n => n = 0
  | .resourceControlRefused,n => n ≤ 1
  | .deadlineKilled,n | .stdoutCapKilled,n | .stderrCapKilled,n | .unknown,n => n = 1

def validateEvidenceInvariants (evidence : ProcessEvidence) : Except String Unit :=
  if evidence.retryPerformed || evidence.cleanupPerformed || decide (1 < evidence.processStartCount) then
    .error "evidence-one-shot-invariant-failed"
  else if evidence.outputComplete ≠ (evidence.standardOutput.complete && evidence.standardError.complete) ∨
      evidence.standardOutput.complete = evidence.standardOutput.truncated ∨
      evidence.standardError.complete = evidence.standardError.truncated then
    .error "evidence-output-invariant-failed"
  else if evidence.terminalState = .knownExit ∧ (evidence.processStartCount ≠ 1 ∨ ¬evidence.exitCodeKnown ∨
      evidence.exitCode = none ∨ ¬evidence.outputComplete) then
    .error "evidence-known-exit-invariant-failed"
  else if evidence.terminalState ≠ .knownExit ∧ (evidence.exitCodeKnown ∨ evidence.exitCode.isSome) then
    .error "evidence-unknown-exit-invariant-failed"
  else if evidence.terminalState.starts evidence.processStartCount then .ok ()
  else .error "evidence-terminal-start-invariant-failed"

end Neurobro.Runner
