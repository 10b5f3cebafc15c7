import Neurobro.Execution.Contract

/-! The adapter around the sidecar: one lease for all calls, the child of a call, its
timers and its events. Each step is what runs between two waits. -/
namespace Neurobro.Runner.Sidecar

def sidecarStreamCap : Nat := 65536
def maxSafeInteger : Nat := 9007199254740991

structure FixtureTerminationPlan where
  /-- Whether a close is told to the adapter once more. -/
  duplicateClose : Bool

/-- What a call is given beside its request. -/
structure Authority where
  suppressClose : Bool := false
  suppressKillResult : Bool := false
  fixture : Option FixtureTerminationPlan := none

inductive Trigger where
  | aggregateDeadline | stdoutCap | stderrCap
  deriving DecidableEq

structure TerminationObservation where
  trigger : Trigger
  killRequestCount : Nat
  killResultKnown : Bool
  killResult : Option Bool
  closeObserved : Bool
  fixtureSafetyCloseObserved : Bool

structure RawResult where
  exitCodeKnown : Bool
  exitCode : Option Int32
  outputComplete : Bool
  stdout : Bytes
  stderr : Bytes
  stdoutTruncated : Bool
  stderrTruncated : Bool
  deadlineExceeded : Bool

/-- What a call settles with. -/
inductive Outcome where
  | concurrencyRefused
  /-- Refused before a child was asked for. -/
  | refused (code : String)
  /-- The child could not be started. -/
  | spawnRefused (error : String)
  | terminationInvariantFailed
  | terminationUnknown (termination : TerminationObservation)
  | terminal (code : String) (evidenceRecovered : Bool)
  | result (evidence : ProcessEvidence)

/-- What an outcome tells of the command: nothing was started, this is known of it, or neither. -/
inductive Effect where
  | none | known | unknown
  deriving DecidableEq

def Outcome.effect : Outcome → Effect
  | .concurrencyRefused | .refused _ | .spawnRefused _ => .none
  | .terminationInvariantFailed | .terminationUnknown _ | .terminal _ _ => .unknown
  | .result evidence => if evidence.processStartCount = 0 then .none else .known

structure Lease where
  generation : Option Nat := none
  /-- The child has been asked for. -/
  child : Bool := false
  quarantineHeld : Bool := false
  matchingCloseObserved : Bool := false
  terminalUnknownReturned : Bool := false

/-- What `invokeDirect` keeps while its promise is open. -/
structure Direct where
  settled : Bool := false
  stdout : Bytes := []
  stderr : Bytes := []
  stdoutTruncated : Bool := false
  stderrTruncated : Bool := false
  deadlineExceeded : Bool := false
  terminationTrigger : Option Trigger := none
  killRequestCount : Nat := 0
  killResultKnown : Bool := false
  killResult : Option Bool := none
  closeObserved : Bool := false
  fixtureSafetyCloseObserved : Bool := false
  deadlineTimer : Bool := false
  closeGraceTimer : Bool := false

/-- What has become of the process behind the child object. -/
structure Child where
  started : Bool := false
  closed : Bool := false
  errored : Bool := false

inductive Phase where
  | idle
  | verifying
  | running
  /-- The child has closed; the evidence is read. -/
  | reading (raw : RawResult)
  /-- The outcome is decided; the lease is not yet looked at. -/
  | leaving (outcome : Outcome)
  | settled (outcome : Outcome)

structure Call where
  phase : Phase := .idle
  lease : Lease := {}
  direct : Direct := {}
  child : Child := {}

structure Adapter where
  active : Option Nat := none
  lastGeneration : Nat := 0
  calls : Nat → Call := fun _ => {}

def Adapter.put (w : Adapter) (c : Nat) (call : Call) : Adapter :=
  { w with calls := fun j => if j = c then call else w.calls j }

def Call.settle (call : Call) (phase : Phase) : Call :=
  { call with phase, direct := { call.direct with settled := true, deadlineTimer := false } }

/-! ## The start -/

/-- `invokeRustSidecar` up to its first wait. -/
def Adapter.invoke (w : Adapter) (c : Nat) : Option Adapter :=
  match (w.calls c).phase with
  | .idle =>
    if w.active.isSome then some (w.put c { w.calls c with phase := .settled .concurrencyRefused })
    else some { w.put c { w.calls c with phase := .verifying } with active := some c }
  | _ => none

/-- A check before the child fails. -/
def Adapter.refuse (w : Adapter) (c : Nat) (code : String) : Option Adapter :=
  match (w.calls c).phase with
  | .verifying => some (w.put c { w.calls c with phase := .leaving (.refused code) })
  | _ => none

/-- What comes of asking for a child: an exception, a child that will only report its error, or a process. -/
inductive Spawned where
  | thrown (error : String)
  | refused
  | started
  deriving DecidableEq

/-- `allocateSidecarGeneration` and the start of the child. -/
def Adapter.spawn (w : Adapter) (c : Nat) (spawned : Spawned) : Option Adapter :=
  let call := w.calls c
  match call.phase with
  | .verifying =>
    if w.active ≠ some c ∨ call.lease.child ∨ call.lease.generation.isSome then
      some (w.put c { call with phase := .leaving (.refused "sidecar-generation-invariant-failed") })
    else if maxSafeInteger ≤ w.lastGeneration then
      some (w.put c { call with phase := .leaving (.refused "sidecar-generation-exhausted") })
    else
      some { w.put c
        (match spawned with
        | .thrown error =>
          { call with
            phase := .leaving (.spawnRefused error)
            lease := { call.lease with generation := some (w.lastGeneration + 1) } }
        | _ =>
          { call with
            phase := .running
            lease := { call.lease with generation := some (w.lastGeneration + 1), child := true }
            direct := { call.direct with deadlineTimer := true }
            child := { call.child with started := spawned = .started } })
        with lastGeneration := w.lastGeneration + 1 }
  | _ => none

/-! ## Terminations -/

def Call.requestTermination (call : Call) (trigger : Trigger) : Call :=
  if call.direct.settled ∨ call.direct.terminationTrigger.isSome then call
  else
    { call with
      lease := { call.lease with quarantineHeld := true }
      direct := { call.direct with terminationTrigger := some trigger, closeGraceTimer := true } }

def Call.finishTermination (call : Call) : Call :=
  match call.direct.settled,call.direct.terminationTrigger with
  | false,some trigger =>
    if call.direct.killRequestCount ≠ 1 then
      { call with
        phase := .leaving .terminationInvariantFailed
        direct := { call.direct with settled := true, deadlineTimer := false, closeGraceTimer := false } }
    else
      { call with
        phase := .leaving (.terminationUnknown
          { trigger
            killRequestCount := call.direct.killRequestCount
            killResultKnown := call.direct.killResultKnown
            killResult := call.direct.killResult
            closeObserved := call.direct.closeObserved
            fixtureSafetyCloseObserved := call.direct.fixtureSafetyCloseObserved })
        lease := { call.lease with terminalUnknownReturned := true }
        direct := { call.direct with settled := true, deadlineTimer := false, closeGraceTimer := false } }
  | _,_ => call

/-- The deadline passes. -/
def Call.deadline (call : Call) : Call :=
  { call with direct := { call.direct with deadlineExceeded := true, deadlineTimer := false } }.requestTermination
    .aggregateDeadline

/-- What the call notes of the answer to its kill; it may be an exception. -/
def Call.killed (authority : Authority) (call : Call) (answer : Option Bool) : Call :=
  let known := answer.isSome && !(authority.suppressKillResult && answer = some true)
  { call with
    direct := { call.direct with
      killRequestCount := 1
      killResultKnown := known
      killResult := if known then answer else none
      closeGraceTimer := false } }

/-- The grace ends: the child is killed, and whatever comes of it, the call ends. -/
def Call.graceEnds (authority : Authority) (call : Call) (answer : Option Bool) : Call :=
  if call.direct.settled ∨ call.direct.terminationTrigger = none then
    { call with direct := { call.direct with closeGraceTimer := false } }
  else (call.killed authority answer).finishTermination

/-! ## Events of the child -/

def Call.stdoutData (call : Call) (chunk : Bytes) : Call :=
  if call.direct.stdoutTruncated then call
  else if sidecarStreamCap < (call.direct.stdout ++ chunk).length then
    { call with direct := { call.direct with
      stdout := (call.direct.stdout ++ chunk).take sidecarStreamCap
      stdoutTruncated := true } }.requestTermination .stdoutCap
  else { call with direct := { call.direct with stdout := call.direct.stdout ++ chunk } }

def Call.stderrData (call : Call) (chunk : Bytes) : Call :=
  if call.direct.stderrTruncated then call
  else if sidecarStreamCap < (call.direct.stderr ++ chunk).length then
    { call with direct := { call.direct with
      stderr := (call.direct.stderr ++ chunk).take sidecarStreamCap
      stderrTruncated := true } }.requestTermination .stderrCap
  else { call with direct := { call.direct with stderr := call.direct.stderr ++ chunk } }

def Call.error (call : Call) (error : String) : Call :=
  if call.direct.settled ∨ call.direct.terminationTrigger.isSome then call
  else call.settle (.leaving (.spawnRefused error))

/-- `observeMatchingChildClose`: the close is that of the lease in force, and its first. -/
def Adapter.observeMatchingChildClose (w : Adapter) (c : Nat) : Option Adapter :=
  let call := w.calls c
  if w.active ≠ some c ∨ call.lease.child = false ∨ call.lease.generation = none ∨ call.lease.matchingCloseObserved then none
  else
    some { w.put c { call with lease := { call.lease with matchingCloseObserved := true } } with
      active := if call.lease.quarantineHeld ∧ call.lease.terminalUnknownReturned then none else w.active }

def Call.rawResult (call : Call) (code : Option Int32) : RawResult where
  exitCodeKnown := code.isSome
  exitCode := code
  outputComplete := !call.direct.stdoutTruncated && !call.direct.stderrTruncated
  stdout := call.direct.stdout
  stderr := call.direct.stderr
  stdoutTruncated := call.direct.stdoutTruncated
  stderrTruncated := call.direct.stderrTruncated
  deadlineExceeded := call.direct.deadlineExceeded

/-- What a matching close does to an open call. -/
def Call.closes (authority : Authority) (call : Call) (code : Option Int32) : Call :=
  if call.direct.settled then call
  else if call.direct.terminationTrigger.isSome then
    { call with direct := { call.direct with
      fixtureSafetyCloseObserved := true
      closeObserved := call.direct.closeObserved || !authority.suppressClose } }
  else call.settle (.reading (call.rawResult code))

/-- The listener of the close. -/
def Adapter.onChildClose (authority : Authority) (w : Adapter) (c : Nat) (code : Option Int32) : Adapter :=
  match w.observeMatchingChildClose c with
  | none => w
  | some w' => w'.put c ((w'.calls c).closes authority code)

/-! ## The end -/

/-- What the adapter reads of evidence and acknowledgement, for the request of a call. -/
structure Checks where
  parse : Bytes → Option ProcessEvidence
  binds : ProcessEvidence → Bool
  acknowledges : Bytes → Bytes → ProcessEvidence → Bool

def RawResult.clear (raw : RawResult) : Bool :=
  raw.exitCodeKnown && raw.exitCode = some 0 && raw.outputComplete && !raw.deadlineExceeded && !raw.stdoutTruncated &&
    !raw.stderrTruncated

def conclude (checks : Checks) (raw : RawResult) (evidence : Option Bytes) : Outcome :=
  match evidence with
  | none => .terminal "durable-evidence-unavailable" false
  | some bytes =>
    if !raw.clear then .terminal "sidecar-terminal-not-clear" true
    else if raw.stderr ≠ [] then .terminal "sidecar-stderr-refused" true
    else
      match checks.parse bytes with
      | none => .terminal "durable-evidence-parse-refused" true
      | some evidence =>
        if !checks.binds evidence then .terminal "evidence-request-binding-refused" true
        else if !checks.acknowledges raw.stdout bytes evidence then .terminal "sidecar-ack-binding-refused" true
        else .result evidence

/-- The end of a call: the lease is given back unless the child is in quarantine. -/
def Adapter.leave (w : Adapter) (c : Nat) : Option Adapter :=
  let call := w.calls c
  match call.phase with
  | .leaving outcome =>
    some { w.put c { call with phase := .settled outcome } with
      active :=
        if w.active = some c ∧ ¬(call.lease.quarantineHeld = true ∧ call.lease.matchingCloseObserved = false) then none
        else w.active }
  | _ => none

/-! ## Steps -/

structure Setting where
  authority : Nat → Authority
  checks : Nat → Checks

inductive Event where
  | invoke (c : Nat)
  | refuse (c : Nat) (code : String)
  | spawn (c : Nat) (spawned : Spawned)
  | deadline (c : Nat)
  | fixtureDeadline (c : Nat)
  | graceEnds (c : Nat) (answer : Option Bool)
  | stdoutData (c : Nat) (chunk : Bytes)
  | stderrData (c : Nat) (chunk : Bytes)
  | error (c : Nat) (error : String)
  | close (c : Nat) (code : Option Int32)
  | closeAgain (c : Nat)
  | evidence (c : Nat) (evidence : Option Bytes)
  | leave (c : Nat)

/-- A child tells its error once: that it could not be started, or that it could not be killed. -/
def Call.mayFail (call : Call) : Bool :=
  call.lease.child && !call.child.errored && (!call.child.started || call.direct.killRequestCount = 1)

def Adapter.step (setting : Setting) (w : Adapter) : Event → Option Adapter
  | .invoke c => w.invoke c
  | .refuse c code => w.refuse c code
  | .spawn c spawned => w.spawn c spawned
  | .deadline c => if (w.calls c).direct.deadlineTimer then some (w.put c (w.calls c).deadline) else none
  | .fixtureDeadline c =>
    if (w.calls c).lease.child ∧ (setting.authority c).fixture.isSome then
      some (w.put c ((w.calls c).requestTermination .aggregateDeadline))
    else none
  | .graceEnds c answer =>
    if (w.calls c).direct.closeGraceTimer then some (w.put c ((w.calls c).graceEnds (setting.authority c) answer)) else none
  | .stdoutData c chunk => if (w.calls c).lease.child then some (w.put c ((w.calls c).stdoutData chunk)) else none
  | .stderrData c chunk => if (w.calls c).lease.child then some (w.put c ((w.calls c).stderrData chunk)) else none
  | .error c error =>
    if (w.calls c).mayFail then
      some (w.put c ({ w.calls c with child := { (w.calls c).child with errored := true } }.error error))
    else none
  | .close c code =>
    if (w.calls c).lease.child ∧ (w.calls c).child.closed = false then
      some ((w.put c { w.calls c with child := { (w.calls c).child with closed := true } }).onChildClose
        (setting.authority c) c code)
    else none
  | .closeAgain c =>
    if (w.calls c).child.closed ∧ (setting.authority c).fixture.any FixtureTerminationPlan.duplicateClose then
      some (w.onChildClose (setting.authority c) c (some 0))
    else none
  | .evidence c evidence =>
    match (w.calls c).phase with
    | .reading raw =>
      some (w.put c { w.calls c with phase := .leaving (conclude (setting.checks c) raw evidence) })
    | _ => none
  | .leave c => w.leave c

/-- Where steps lead from a state. -/
inductive Leads (setting : Setting) (w : Adapter) : Adapter → Prop where
  | refl : Leads setting w w
  | step {w' w'' : Adapter} {event : Event} (before : Leads setting w w') (took : w'.step setting event = some w'') :
      Leads setting w w''

end Neurobro.Runner.Sidecar
