import Neurobro.Execution.Outcomes
import Neurobro.Execution.Documents

/-! A started command leaves evidence, unless a cap is overrun beside its exit code or the
platform fails the main thread. -/
namespace Neurobro.Runner

open Json JsonText

theorem ProcessOutcome.Proper.writable {o : ProcessOutcome} (proper : o.Proper spawned)
    (finished : ∃ t, o.finishedUtc = utcText t) : o.Writable := by
  refine ⟨proper.started,finished,?_,proper.stdout.bound,proper.stderr.bound⟩
  have := proper.count
  split at this <;> omega

/-- An outcome that the execution returns goes to the evidence file. -/
theorem Task.conclude_proper (task : Task) {o : ProcessOutcome} (proper : o.Proper spawned)
    (finished : ∃ t, o.finishedUtc = utcText t) : task.conclude o = .writing (task.evidence o) := by
  have writable := proper.writable finished
  have valid : validateEvidenceInvariants (task.evidence o) = .ok () := proper.validates _ _ _
  have text := canonicalJsonBytes_exact (evidence_exact task.host task.loaded writable)
  have fits := evidence_size task.host task.loaded writable
  simp only [Task.conclude,Task.evidence] at valid ⊢
  rw [valid,text]
  simp only [canonicalText_size]
  rw [if_neg (by omega)]

structure Boundary.Inv (b : Boundary) : Prop where
  exec : b.exec.Inv
  waits : b.stage = .executing ∨ ∃ result, b.exec.main = .returned result
  ends : b.exec.spawned = true → ∀ failure, b.stage = .ended (.error failure) → ∃ error, failure = .write error

theorem Boundary.Inv.child {task : Task} {b : Boundary} (inv : b.Inv) {event : Event} {exec : Exec}
    (calm : b.breaks task (.child event) = false) (took : b.exec.step task.fault event = some exec) :
    Boundary.Inv { b with exec } := by
  simp only [Boundary.breaks,Bool.or_eq_false_iff] at calm
  refine ⟨inv.exec.step calm.1 calm.2 took,?_,?_⟩
  · rcases inv.waits with executing | ⟨result,returned⟩
    · exact .inl executing
    · exact .inr ⟨result,(Exec.returned_stays returned took).1⟩
  · intro spawned failure ended
    rcases inv.waits with executing | ⟨result,returned⟩
    · have ended : b.stage = .ended (.error failure) := ended
      rw [executing] at ended
      contradiction
    · exact inv.ends ((Exec.returned_stays returned took).2 ▸ spawned) failure ended

theorem Boundary.Inv.collect {task : Task} {b b' : Boundary} (inv : b.Inv) (took : b.collect task = some b') : b'.Inv := by
  have holds := inv.exec.main
  simp only [Boundary.collect] at took
  split at took
  · rename_i error _ returned
    cases took
    refine ⟨inv.exec,.inr ⟨_,returned⟩,fun spawned => ?_⟩
    rw [returned] at holds
    have idle : b.exec.spawned = false := holds
    simp [idle] at spawned
  · rename_i outcome _ returned
    cases took
    rw [returned] at holds
    obtain ⟨proper,finished⟩ := holds
    refine ⟨inv.exec,.inr ⟨_,returned⟩,?_⟩
    simp [task.conclude_proper proper finished]
  · contradiction

theorem Boundary.Inv.step {task : Task} {b b' : Boundary} (inv : b.Inv) {turn : Turn} (calm : b.breaks task turn = false)
    (took : b.step task turn = some b') : b'.Inv := by
  cases turn with
  | child event =>
    obtain ⟨exec,step,rfl⟩ := Option.map_eq_some_iff.mp took
    exact inv.child calm step
  | collect => exact inv.collect took
  | write result =>
    simp only [Boundary.step,Boundary.write] at took
    split at took
    · rename_i evidence _ here
      cases took
      have returned := inv.waits.resolve_left (by simp [here])
      exact ⟨inv.exec,.inr returned,by simp⟩
    · rename_i evidence error here
      cases took
      have returned := inv.waits.resolve_left (by simp [here])
      exact ⟨inv.exec,.inr returned,by simp⟩
    · contradiction
  | acknowledge result =>
    simp only [Boundary.step,Boundary.acknowledge] at took
    split at took
    · rename_i evidence _ here
      cases took
      have returned := inv.waits.resolve_left (by simp [here])
      exact ⟨inv.exec,.inr returned,by simp⟩
    · simp [Boundary.breaks] at calm
    · contradiction

theorem Reached.inv {task : Task} (run : Reached task (fun b turn => b.breaks task turn = false) b) : b.Inv:= by
  induction run with
  | start => exact ⟨Exec.inv_start,.inl rfl,by simp⟩
  | step before may taken ih => exact ih.step may taken

/-- In a run whose steps are not torn, the returned outcome passes the checks on its evidence and shows no exit code
beside a stream cut off; once the command has started, only the evidence file can fail. -/
theorem started_leaves_evidence (task : Task) (b : Boundary)
    (run : Reached task (fun b turn => b.breaks task turn = false) b) :
    (∀ outcome, b.exec.main = .returned (.ok outcome) →
      validateEvidenceInvariants (task.evidence outcome) = .ok () ∧
      (outcome.terminalState = .knownExit →
        outcome.standardOutput.truncated = false ∧ outcome.standardError.truncated = false)) ∧
    (b.exec.spawned = true → ∀ failure, b.stage = .ended (.error failure) → ∃ error, failure = .write error) := by
  have inv := run.inv
  refine ⟨fun outcome returned => ?_,inv.ends⟩
  have holds := inv.exec.main
  rw [returned] at holds
  obtain ⟨proper,_⟩ := holds
  refine ⟨proper.validates _ _ _,fun known => ?_⟩
  obtain ⟨_,_,_,out,err⟩ := proper.known known
  have outEither := proper.stdout.either
  have errEither := proper.stderr.either
  rw [out] at outEither
  rw [err] at errEither
  exact ⟨by simpa using outEither,by simpa using errEither⟩

/-! ## Runs of one request -/

theorem readCanonical_of {text : String} {value : Json} {request : ProcessRequest} (parsed : parse text = some value)
    (written : canonicalJsonBytes value = .ok text) (typed : readRequest value = some request) :
    readCanonical text = .ok request := by
  simp [readCanonical,parsed,written,typed]

theorem loadRequest_of {host : Host} {text : String} {request : ProcessRequest}
    (size : ¬(requestBytes = [] ∨ requestBytesMax < requestBytes.length))
    (unmarked : byteOrderMark.isPrefixOf requestBytes = false) (decoded : fromUtf8 requestBytes = some text)
    (read : readCanonical text = .ok request) (valid : validateStaticRequest host request = .ok stdinBytes) :
    loadRequest host requestBytes = .ok (request,stdinBytes) := by
  simp [loadRequest,size,unmarked,decoded,read,valid,Except.map]

def sampleValue : Json :=
  .obj [("argv",.arr [.str "--version"]),
    ("attemptMarker",.obj [("createNew",.bool true),("path",.str "C:\\Work\\marker.json")]),
    ("containment",.obj [("consumer",.str "phase-3-wsl-hardening-coordinator"),("operationRoot",.str "C:\\Work"),
      ("requireCanonicalPaths",.bool true)]),
    ("environment",.obj [("allowlist",.arr []),("inherit",.bool false),("values",.obj [])]),
    ("evidence",.obj [("createNew",.bool true),("path",.str "C:\\Work\\evidence.json"),
      ("schema",.str "decadans.rm0032.process-evidence.v1")]),
    ("executable",.obj [("path",.str "C:\\Program Files\\WSL\\wsl.exe"),
      ("sha256",.str "991df9b199545d480854bcf43093f7b29d9243e8f18e42a0d8de05860b27a9b3")]),
    ("limits",.obj [("aggregateDeadlineMs",whole 420000),("childProcessMax",whole 1),("concurrencyMax",whole 1),
      ("cpuPercentMax",whole 25),("deadlineMs",whole 60000),("evidenceBytesMax",whole 3145728),
      ("memoryBytesMax",whole 268435456),("requestBytesMax",whole 65536),("stderrBytesMax",whole 1048576),
      ("stdinBytesMax",whole 262144),("stdoutBytesMax",whole 1048576)]),
    ("oneShot",.bool true),("operationId",.str "4F6C2E10-9A3B-4C7D-8E21-0B5D6A7C8E9F"),("retryAuthorized",.bool false),
    ("schema",.str "decadans.rm0032.process-request.v1"),
    ("stdin",.obj [("base64",.str ""),("bytes",whole 0),("encoding",.str "base64"),
      ("sha256",.str "e3b0c44298fc1c149afbf4c8996fb92427ae41e4649b934ca495991b7852b855")])]

def sampleText : String := canonicalText scalarOrder sampleValue

def sampleRequest : ProcessRequest where
  schema := processRequestSchema
  operationId := "4F6C2E10-9A3B-4C7D-8E21-0B5D6A7C8E9F"
  oneShot := true
  retryAuthorized := false
  executable := ⟨"C:\\Program Files\\WSL\\wsl.exe","991df9b199545d480854bcf43093f7b29d9243e8f18e42a0d8de05860b27a9b3"⟩
  argv := ["--version"]
  stdin := ⟨"base64","",0,"e3b0c44298fc1c149afbf4c8996fb92427ae41e4649b934ca495991b7852b855"⟩
  environment := ⟨false,[],[]⟩
  limits := ⟨65536,262144,1048576,1048576,3145728,1,1,60000,420000,268435456,25⟩
  containment := ⟨processConsumer,"C:\\Work",true⟩
  attemptMarker := ⟨"C:\\Work\\marker.json",true⟩
  evidence := ⟨"C:\\Work\\evidence.json",processEvidenceSchema,true⟩

/-- The digests of the texts that the sample runs have. -/
def sampleDigest (bytes : Bytes) : String :=
  if bytes = [] then "e3b0c44298fc1c149afbf4c8996fb92427ae41e4649b934ca495991b7852b855"
  else if bytes = utf8 sampleText then "fd6aa9ff1e09478e823daf49e8ec0ece9693dc6ddb5080cb611d573aad870ede"
  else "8f990ba0b577b51cf009ea049368c16bbda1b21e1b93be07a824758bb253c39b"

theorem sample_executable : sha256Text "991df9b199545d480854bcf43093f7b29d9243e8f18e42a0d8de05860b27a9b3" = true := by
  rw [sha256Text,String.toList_ofList]
  decide +kernel

theorem empty_digest : sha256Text "e3b0c44298fc1c149afbf4c8996fb92427ae41e4649b934ca495991b7852b855" = true := by
  rw [sha256Text,String.toList_ofList]
  decide +kernel

theorem sampleDigest_format (bytes : Bytes) : sha256Text (sampleDigest bytes) = true := by
  rw [sampleDigest]
  split
  · exact empty_digest
  · split
    · rw [sha256Text,String.toList_ofList]
      decide +kernel
    · rw [sha256Text,String.toList_ofList]
      decide +kernel

def sampleHost : Host := ⟨sampleDigest,sampleDigest_format⟩

theorem sample_exact : Exact sampleValue := by
  simp [sampleValue,Exact,ExactFields,ExactItems,whole,wholeNumber,safe]

theorem sample_read : readRequest sampleValue = some sampleRequest := by decide +kernel

theorem sample_arranged : arrange scalarOrder sampleValue = sampleValue := by rfl

theorem sample_canonical : readCanonical sampleText = .ok sampleRequest := by
  have parsed := parse_canonicalText (o := scalarOrder) sample_exact
  rw [sample_arranged] at parsed
  exact readCanonical_of parsed (canonicalJsonBytes_exact sample_exact) sample_read

theorem sample_valid : validateStaticRequest sampleHost sampleRequest = .ok [] := by decide +kernel

/-- A text whose first byte opens an object. -/
def Opens (s : String) : Prop := ∃ rest, utf8 s = 0x7b :: rest

theorem Opens.append (opens : Opens s) (t : String) : Opens (s ++ t) := by
  obtain ⟨rest,is_⟩ := opens
  exact ⟨rest ++ utf8 t,by simp [utf8] at is_ ⊢; simp [is_]⟩

theorem Opens.unmarked (opens : Opens s) : byteOrderMark.isPrefixOf (utf8 s) = false := by
  obtain ⟨rest,is_⟩ := opens
  rw [is_]
  rfl

theorem sample_opens : Opens sampleText := by
  rw [sampleText,canonicalText,sample_arranged,sampleValue,stringify,String.append_assoc]
  exact Opens.append ⟨[],by decide⟩ _

theorem sample_size : ¬(utf8 sampleText = [] ∨ requestBytesMax < (utf8 sampleText).length) := by
  have size : sampleText.utf8ByteSize = 1042 := by
    rw [sampleText,canonicalText_size,sampleValue]
    simp only [size_obj_eq,size_arr_eq,memberSizes_cons,memberSizes_nil,itemSizes_cons,itemSizes_nil,
      size_digest sample_executable,size_digest empty_digest,size_text,quote_bytes]
    decide +kernel
  rw [← List.length_eq_zero_iff,utf8_length,size]
  decide

theorem sample_loaded : loadRequest sampleHost (utf8 sampleText) = .ok (sampleRequest,[]) :=
  loadRequest_of sample_size sample_opens.unmarked (fromUtf8_utf8 _) sample_canonical sample_valid

def sampleTask : Task where
  host := sampleHost
  requestBytes := utf8 sampleText
  request := sampleRequest
  stdinBytes := []
  fault := .none
  loaded := sample_loaded

/-- Turns taken one after another, as far as each may be taken. -/
def Boundary.play (task : Task) (may : Boundary → Turn → Bool) : List Turn → Boundary → Option Boundary
  | [],b => some b
  | turn :: rest,b => if may b turn then (b.step task turn).bind (play task may rest) else none

theorem Reached.play {task : Task} {allowed : Boundary → Turn → Prop}
    (sound : ∀ b turn, may b turn = true → allowed b turn) (turns : List Turn)
    (before : Reached task allowed b) (took : b.play task may turns = some b') : Reached task allowed b' := by
  induction turns generalizing b with
  | nil =>
    cases took
    exact before
  | cons turn rest ih =>
    simp only [Boundary.play] at took
    split at took
    · rename_i may_
      obtain ⟨next,taken,later⟩ := Option.bind_eq_some_iff.mp took
      exact ih (before.step (sound b turn may_) taken) later
    · contradiction

def sampleTime : SystemTime := ⟨2026,3,1,12,0,0,0⟩

def nothing : Chunk := ⟨[],Nat.zero_le _⟩

/-- A command up to its pipes. -/
def sampleStart : List Turn :=
  [.child (.clock (.ok sampleTime)),.child (.job (.ok ())),.child (.spawn (.ok ())),.child (.assign (.ok ())),
    .child (.resume (.ok ())),.child .look]

/-- A command that says nothing and exits with zero. -/
def sampleTurns : List Turn :=
  sampleStart ++ [.child (.stdinEnds true),.child (.stdoutRead (.ok nothing)),.child (.stderrRead (.ok nothing)),
    .child .look,.child .look,.child (.now false),.child (.tryWait (.ok (some ⟨some 0⟩))),.child .look,.child .look,
    .child .look,.child (.clock (.ok sampleTime))]

def sampleOutcome : ProcessOutcome where
  startedUtc := utcText sampleTime
  finishedUtc := utcText sampleTime
  processStartCount := 1
  terminalState := .knownExit
  exitCodeKnown := true
  exitCode := some 0
  standardOutput := completeStream []
  standardError := completeStream []

def sampleExec : Exec where
  main := .returned (.ok sampleOutcome)
  startedUtc := utcText sampleTime
  spawned := true
  stdout := { reader := .ended (.ok (completeStream [])) }
  stderr := { reader := .ended (.ok (completeStream [])) }
  stdin := .ended true

theorem sample_plays : Boundary.play sampleTask (fun b turn => !b.breaks sampleTask turn) sampleTurns {} =
    some { exec := sampleExec } := by rfl

theorem sample_returned : Reached sampleTask (fun b turn => b.breaks sampleTask turn = false) { exec := sampleExec } :=
  Reached.play (by simp) _ .start sample_plays

/-- Its evidence is written and acknowledged. -/
theorem sample_ends : Reached sampleTask (fun b turn => b.breaks sampleTask turn = false)
    { exec := sampleExec, stage := .ended (.ok (sampleTask.evidence sampleOutcome)) } := by
  obtain ⟨proper,finished⟩ : sampleOutcome.Proper true ∧ ∃ t, sampleOutcome.finishedUtc = utcText t :=
    sample_returned.inv.exec.main
  have concluded := sampleTask.conclude_proper proper finished
  have collected : Boundary.step sampleTask { exec := sampleExec } .collect =
      some { exec := sampleExec, stage := .writing (sampleTask.evidence sampleOutcome) } := by
    simp [Boundary.step,Boundary.collect,sampleExec,concluded]
  have written : Boundary.step sampleTask { exec := sampleExec, stage := .writing (sampleTask.evidence sampleOutcome) }
      (.write (.ok ())) = some { exec := sampleExec, stage := .acknowledging (sampleTask.evidence sampleOutcome) } := rfl
  have told : Boundary.step sampleTask { exec := sampleExec, stage := .acknowledging (sampleTask.evidence sampleOutcome) }
      (.acknowledge (.ok ())) = some { exec := sampleExec, stage := .ended (.ok (sampleTask.evidence sampleOutcome)) } := rfl
  exact ((sample_returned.step rfl collected).step rfl written).step rfl told

theorem started_leaves_evidence_sample :
    (Reached sampleTask (fun b turn => b.breaks sampleTask turn = false)
      { exec := sampleExec, stage := .ended (.ok (sampleTask.evidence sampleOutcome)) }) ∧
    sampleExec.spawned = true ∧
    (∀ outcome, sampleExec.main = .returned (.ok outcome) →
      validateEvidenceInvariants (sampleTask.evidence outcome) = .ok () ∧
      (outcome.terminalState = .knownExit →
        outcome.standardOutput.truncated = false ∧ outcome.standardError.truncated = false)) :=
  ⟨sample_ends,rfl,(started_leaves_evidence sampleTask _ sample_ends).1⟩

/-! ## The overrun -/

def filled (n : Nat) : Bytes := List.replicate n 120

theorem filled_length (n : Nat) : (filled n).length = n := List.length_replicate

theorem filled_append (m n : Nat) : filled m ++ filled n = filled (m + n) := List.replicate_append_replicate

theorem filled_ne_nil (some_ : 0 < n) : filled n ≠ [] := by
  intro none_
  have := filled_length n
  simp [none_] at this
  omega

def chunkOf (n : Nat) (short : n ≤ 8192) : Chunk := ⟨filled n,by rw [filled_length]; exact short⟩

/-- A command whose output has come to `n` full buffers, seen before its flags are looked at. -/
def flooding (n : Nat) : Exec where
  main := .checkingStdout
  startedUtc := utcText sampleTime
  spawned := true
  stdout := { reader := .reading (filled (8192 * n)) }
  stderr := { reader := .reading [] }
  stdin := .ended true

/-- The platform fails the main thread in nothing. -/
def calm (b : Boundary) : Turn → Bool
  | .child event => !b.exec.fatal .none event
  | _ => true

/-- One chunk into a buffer with room for it. -/
theorem read_filled (maximum m n : Nat) (some_ : 0 < n) (short : n ≤ 8192) (room : m + n ≤ maximum) (exceeded : Bool) :
    Capture.read maximum ⟨.reading (filled m),exceeded⟩ (.ok (chunkOf n short)) = some ⟨.reading (filled (m + n)),exceeded⟩ := by
  have keeps : retained maximum (filled m) (filled n) = n := by
    simp only [retained,filled_length]
    omega
  simp only [Capture.read,chunkOf,if_neg (filled_ne_nil some_),keeps,filled_length,Nat.lt_irrefl,if_false]
  rw [List.take_of_length_le (Nat.le_of_eq (filled_length n)),filled_append]

/-- One byte more than there is room for. -/
theorem read_over (maximum : Nat) (exceeded : Bool) :
    Capture.read maximum ⟨.reading (filled maximum),exceeded⟩ (.ok (chunkOf 1 (by omega))) =
      some ⟨.ended (.ok (incompleteStream (filled maximum))),true⟩ := by
  have keeps : retained maximum (filled maximum) (filled 1) = 0 := by
    simp only [retained,filled_length]
    omega
  simp [Capture.read,chunkOf,filled_ne_nil,keeps,filled_length]

theorem flooding_start : Reached sampleTask (fun b turn => calm b turn = true) { exec := flooding 0 } :=
  Reached.play (fun _ _ (is_ : calm _ _ = true) => is_) (sampleStart ++ [.child (.stdinEnds true)]) .start rfl

theorem flooding_reached (n : Nat) (room : n ≤ 128) :
    Reached sampleTask (fun b turn => calm b turn = true) { exec := flooding n } := by
  induction n with
  | zero => exact flooding_start
  | succ n ih =>
    have read := read_filled stdoutBytesMax (8192 * n) 8192 (by omega) (by omega)
      (by simp only [stdoutBytesMax]; omega) false
    have taken : Boundary.step sampleTask { exec := flooding n } (.child (.stdoutRead (.ok (chunkOf 8192 (by omega))))) =
        some { exec := flooding (n + 1) } := by
      simp only [Boundary.step,Exec.step,flooding,read,Option.map_some,Nat.mul_add,Nat.mul_one]
    exact (ih (by omega)).step rfl taken

/-- The exit code has been taken, and then the reader overruns its cap. -/
def overrun (main : Main) : Exec where
  main := main
  startedUtc := utcText sampleTime
  spawned := true
  stdout := ⟨.ended (.ok (incompleteStream (filled stdoutBytesMax))),true⟩
  stderr := ⟨.ended (.ok (completeStream [])),false⟩
  stdin := .ended true

def overrunOutcome : ProcessOutcome where
  startedUtc := utcText sampleTime
  finishedUtc := utcText sampleTime
  processStartCount := 1
  terminalState := .knownExit
  exitCodeKnown := true
  exitCode := some 0
  standardOutput := incompleteStream (filled stdoutBytesMax)
  standardError := completeStream []

theorem overrun_reached : Reached sampleTask (fun b turn => calm b turn = true)
    { exec := overrun (.joiningStdin none (some ⟨some 0⟩)) } := by
  have full : 8192 * 128 = stdoutBytesMax := rfl
  have exits : Boundary.play sampleTask calm [.child .look,.child .look,.child (.now false),
      .child (.tryWait (.ok (some ⟨some 0⟩))),.child (.stderrRead (.ok nothing))] { exec := flooding 128 } =
      some { exec := { flooding 128 with
        main := .joiningStdin none (some ⟨some 0⟩)
        stderr := ⟨.ended (.ok (completeStream [])),false⟩ } } := rfl
  have late : Boundary.step sampleTask { exec := { flooding 128 with
        main := .joiningStdin none (some ⟨some 0⟩)
        stderr := ⟨.ended (.ok (completeStream [])),false⟩ } } (.child (.stdoutRead (.ok (chunkOf 1 (by omega))))) =
      some { exec := overrun (.joiningStdin none (some ⟨some 0⟩)) } := by
    simp only [Boundary.step,Exec.step,flooding,full,read_over,Option.map_some,overrun]
  exact (Reached.play (fun _ _ is_ => is_) _ (flooding_reached 128 (by omega)) exits).step rfl late

theorem overrun_returned : Reached sampleTask (fun b turn => calm b turn = true)
    { exec := overrun (.returned (.ok overrunOutcome)) } :=
  Reached.play (fun _ _ (is_ : calm _ _ = true) => is_)
    [.child .look,.child .look,.child .look,.child (.clock (.ok sampleTime))] overrun_reached rfl

theorem overrun_invalid (task : Task) :
    validateEvidenceInvariants (task.evidence overrunOutcome) = .error "evidence-known-exit-invariant-failed" := by
  simp [validateEvidenceInvariants,Task.evidence,evidenceOf,rawStreamEvidence,overrunOutcome,incompleteStream,completeStream]

/-- The command exits with zero and is seen to, its reader then overruns the cap, and the run ends without evidence. -/
theorem overrun_leaves_none : ∃ (task : Task) (b : Boundary) (outcome : ProcessOutcome),
    Reached task (fun b turn => calm b turn = true) b ∧ b.exec.spawned = true ∧ b.exec.main = .returned (.ok outcome) ∧
    outcome.terminalState = .knownExit ∧ outcome.standardOutput.truncated = true ∧
    validateEvidenceInvariants (task.evidence outcome) = .error "evidence-known-exit-invariant-failed" ∧
    b.stage = .ended (.error (.invariants "evidence-known-exit-invariant-failed")) := by
  have concluded : sampleTask.conclude overrunOutcome =
      .ended (.error (.invariants "evidence-known-exit-invariant-failed")) := by
    simp only [Task.conclude,overrun_invalid]
  have collected : Boundary.step sampleTask { exec := overrun (.returned (.ok overrunOutcome)) } .collect =
      some { exec := overrun (.returned (.ok overrunOutcome))
             stage := .ended (.error (.invariants "evidence-known-exit-invariant-failed")) } := by
    simp only [Boundary.step,Boundary.collect,overrun,concluded]
  exact ⟨sampleTask,_,overrunOutcome,overrun_returned.step rfl collected,rfl,rfl,rfl,rfl,overrun_invalid _,rfl⟩

end Neurobro.Runner
