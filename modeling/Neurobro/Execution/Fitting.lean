import Neurobro.Execution.Started

/-! However the execution of an admitted request goes, its evidence has room. The static checks
alone do not see to that: a record that never was a short text could say too much. -/
namespace Neurobro.Runner

open Json JsonText List

/-! ## What the main thread carries along -/

/-- An outcome but for its last time stamp. -/
structure ProcessOutcome.Sized (o : ProcessOutcome) : Prop where
  started : ∃ t, o.startedUtc = utcText t
  count : o.processStartCount ≤ 1
  stdout : o.standardOutput.bytes.length ≤ stdoutBytesMax
  stderr : o.standardError.bytes.length ≤ stderrBytesMax

def Settling.Short : Settling → Prop
  | .uncertain detail => (utf8 detail).length ≤ stderrBytesMax
  | _ => True

/-- What holds where the main thread stands, whatever the platform answered. -/
def Main.Small (startedUtc : String) : Main → Prop
  | .begin | .returned (.error _) => True
  | .terminating why | .waiting why => (∃ t, startedUtc = utcText t) ∧ why.Short
  | .joiningStderr _ _ _ standardOutput =>
    (∃ t, startedUtc = utcText t) ∧ standardOutput.bytes.length ≤ stdoutBytesMax
  | .closing outcome => outcome.Sized
  | .returned (.ok outcome) => outcome.Writable
  | _ => ∃ t, startedUtc = utcText t

structure Exec.Small (s : Exec) : Prop where
  stdout : s.stdout.Good stdoutBytesMax
  stderr : s.stderr.Good stderrBytesMax
  main : s.main.Small s.startedUtc

theorem Exec.small_start : Exec.Small {} := ⟨Capture.good_empty _,Capture.good_empty _,trivial⟩

namespace Exec

variable {fault : FaultMode} {s s' : Exec}

theorem Small.goto (small : s.Small) {main : Main} (holds : main.Small s.startedUtc) : (s.goto main).Small :=
  ⟨small.stdout,small.stderr,holds⟩

theorem Small.fail (small : s.Small) (error : String) : (s.fail error).Small := small.goto trivial

theorem unresolved_sized {state : TerminalState} {out err : CapturedStream} (started : ∃ t, s.startedUtc = utcText t)
    (count : n ≤ 1) (stdout : out.bytes.length ≤ stdoutBytesMax) (stderr : err.bytes.length ≤ stderrBytesMax) :
    (s.unresolved n state out err).Sized := ⟨started,count,stdout,stderr⟩

theorem resourceControlRefusal_sized (started : ∃ t, s.startedUtc = utcText t) (count : n ≤ 1) (error : HostError) :
    (s.resourceControlRefusal n error).Sized := by
  have bound := told_once "resource-control-refused: " "" error (by decide)
  rw [String.append_empty] at bound
  exact unresolved_sized started count (Nat.zero_le _) bound

theorem unknownPreExecution_sized (started : ∃ t, s.startedUtc = utcText t)
    (short : (utf8 detail).length ≤ stderrBytesMax) : (s.unknownPreExecution detail).Sized :=
  unresolved_sized started (Nat.le_refl _) (Nat.zero_le _) short

theorem Small.clock (small : s.Small) {reading : Except HostError SystemTime} (took : s.clock fault reading = some s') : s'.Small := by
  have holds := small.main
  simp only [Exec.clock] at took
  split at took
  · rename_i t here
    split at took
    · cases took
      have detail : (utf8 "synthetic-spawn-refusal").length ≤ stderrBytesMax := by decide
      exact small.goto ⟨⟨t,rfl⟩,⟨t,rfl⟩,Nat.zero_le _,Nat.zero_le _,detail⟩
    · cases took
      exact ⟨small.stdout,small.stderr,t,rfl⟩
  · cases took
    exact small.fail _
  · rename_i outcome t here
    cases took
    rw [here] at holds
    exact small.goto ⟨holds.started,⟨t,rfl⟩,holds.count,holds.stdout,holds.stderr⟩
  · cases took
    exact small.fail _
  · cases took

theorem Small.job (small : s.Small) {result : Except HostError Unit} (took : s.job fault result = some s') : s'.Small := by
  have holds := small.main
  simp only [Exec.job] at took
  split at took
  · rename_i here _
    cases took
    rw [here] at holds
    exact small.goto holds
  · rename_i here _
    cases took
    rw [here] at holds
    exact small.goto (resourceControlRefusal_sized holds (Nat.zero_le _) _)
  · cases took

theorem Small.spawn (small : s.Small) {result : Except HostError Unit} (took : s.spawn result = some s') : s'.Small := by
  have holds := small.main
  simp only [Exec.spawn] at took
  split at took
  · rename_i here
    cases took
    rw [here] at holds
    exact ⟨small.stdout,small.stderr,holds⟩
  · rename_i error here
    cases took
    rw [here] at holds
    have bound := told_once "spawn-refused: " "" error (by decide)
    rw [String.append_empty] at bound
    exact small.goto (unresolved_sized holds (Nat.zero_le _) (Nat.zero_le _) bound)
  · cases took

theorem Small.assign (small : s.Small) {result : Except HostError Unit} (took : s.assign fault result = some s') : s'.Small := by
  have holds := small.main
  simp only [Exec.assign] at took
  split at took
  · rename_i here _
    cases took
    rw [here] at holds
    split
    · exact small.goto ⟨holds,trivial⟩
    · exact small.goto holds
  · rename_i here _
    cases took
    rw [here] at holds
    exact small.goto holds
  · cases took

theorem Small.resume (small : s.Small) {result : Except HostError Unit} (took : s.resume fault result = some s') : s'.Small := by
  have holds := small.main
  simp only [Exec.resume] at took
  split at took
  · rename_i here
    cases took
    rw [here] at holds
    have starting : (utf8 "synthetic-start-uncertainty").length ≤ stderrBytesMax := by decide
    have waiting : (utf8 "synthetic-wait-uncertainty").length ≤ stderrBytesMax := by decide
    split
    · exact small.goto ⟨holds,starting⟩
    · split
      · exact small.goto ⟨holds,waiting⟩
      · exact small.goto holds
  · rename_i here
    cases took
    rw [here] at holds
    exact small.goto ⟨holds,trivial⟩
  · cases took

theorem Small.kill (small : s.Small) {result : Except HostError Unit} (took : s.kill fault result = some s') : s'.Small := by
  have holds := small.main
  simp only [Exec.kill] at took
  split at took
  · rename_i here
    cases took
    rw [here] at holds
    exact small.goto holds
  · cases took
    exact small.fail _
  · rename_i here
    cases took
    rw [here] at holds
    exact small.goto holds
  · rename_i error killError here
    rw [here] at holds
    split at took
    · cases took
      exact small.fail _
    · cases took
      exact small.goto (unknownPreExecution_sized holds (told_short _ _ error killError (by decide)))
  · cases took

theorem Small.settled (small : s.Small) {why : Settling} (started : ∃ t, s.startedUtc = utcText t) (short : why.Short)
    (status : ExitStatus) : (s.goto (s.settled status why)).Small := by
  cases why with
  | refuse error => exact small.goto (resourceControlRefusal_sized started (Nat.le_refl _) error)
  | uncertain detail => exact small.goto (unresolved_sized started (Nat.le_refl _) (Nat.zero_le _) short)
  | overridden state => exact small.goto started

theorem injected_short (fault : FaultMode) (error : HostError) :
    (utf8 ("resource-control-refused: " ++ error.text ++ "; " ++ fault.injectedDetail ++
      "; fixture-safety-teardown-observed")).length ≤ stderrBytesMax := by
  have detail := fault.injectedDetail_short
  have first := error.short
  have marks : "resource-control-refused: ".utf8ByteSize = 26 ∧ "; ".utf8ByteSize = 2 ∧
      "; fixture-safety-teardown-observed".utf8ByteSize = 34 := by decide
  simp only [utf8_length,String.utf8ByteSize_append,stderrBytesMax,marks]
  omega

theorem Small.wait (small : s.Small) {result : Except HostError ExitStatus} (took : s.wait fault result = some s') : s'.Small := by
  have holds := small.main
  simp only [Exec.wait] at took
  split at took
  · rename_i why status here
    cases took
    rw [here] at holds
    exact small.settled holds.1 holds.2 status
  · cases took
    exact small.fail _
  · rename_i error status here
    rw [here] at holds
    split at took
    · cases took
      exact small.goto (unknownPreExecution_sized holds (injected_short fault error))
    · cases took
      exact small.goto (resourceControlRefusal_sized holds (Nat.le_refl _) error)
  · rename_i error waitError here
    rw [here] at holds
    split at took
    · cases took
      exact small.fail _
    · cases took
      exact small.goto (unknownPreExecution_sized holds (told_short _ _ error waitError (by decide)))
  · cases took

theorem Small.look (small : s.Small) (took : s.look = some s') : s'.Small := by
  have holds := small.main
  simp only [Exec.look] at took
  split at took
  · rename_i here
    cases took
    rw [here] at holds
    exact ⟨Capture.good_start _,Capture.good_start _,holds⟩
  · rename_i here
    cases took
    rw [here] at holds
    split
    · exact small.goto ⟨holds,trivial⟩
    · exact small.goto holds
  · rename_i here
    cases took
    rw [here] at holds
    split
    · exact small.goto ⟨holds,trivial⟩
    · exact small.goto holds
  · rename_i override known here
    rw [here] at holds
    split at took
    · cases took
      exact small.goto holds
    · cases took
  · rename_i override known stdinOk here
    rw [here] at holds
    split at took
    · rename_i stream ended
      cases took
      exact small.goto ⟨holds,(small.stdout.ended stream ended).1⟩
    · cases took
      exact small.fail _
    · cases took
  · rename_i override known stdinOk standardOutput here
    rw [here] at holds
    split at took
    · rename_i stream ended
      cases took
      exact small.goto ⟨holds.1,Nat.le_refl _,holds.2,(small.stderr.ended stream ended).1⟩
    · cases took
      exact small.fail _
    · cases took
  · cases took

/-- One step, whatever it is. -/
theorem Small.step (small : s.Small) {event : Event} (took : s.step fault event = some s') : s'.Small := by
  have holds := small.main
  cases event with
  | clock reading => exact small.clock took
  | job result => exact small.job took
  | spawn result => exact small.spawn took
  | assign result => exact small.assign took
  | kill result => exact small.kill took
  | wait result => exact small.wait took
  | resume result => exact small.resume took
  | look => exact small.look took
  | now late =>
    simp only [Exec.step,Exec.now] at took
    split at took
    · rename_i here
      cases took
      rw [here] at holds
      split
      · exact small.goto ⟨holds,trivial⟩
      · exact small.goto holds
    · cases took
  | tryWait result =>
    simp only [Exec.step,Exec.tryWait] at took
    split at took
    · rename_i here
      cases took
      rw [here] at holds
      exact small.goto holds
    · rename_i here
      cases took
      rw [here] at holds
      exact small.goto holds
    · rename_i here
      cases took
      rw [here] at holds
      exact small.goto ⟨holds,trivial⟩
    · cases took
  | stdoutRead chunk =>
    obtain ⟨stdout,read,rfl⟩ := Option.map_eq_some_iff.mp took
    exact ⟨small.stdout.read read,small.stderr,holds⟩
  | stderrRead chunk =>
    obtain ⟨stderr,read,rfl⟩ := Option.map_eq_some_iff.mp took
    exact ⟨small.stdout,small.stderr.read read,holds⟩
  | stdinEnds ok =>
    simp only [Exec.step] at took
    split at took
    · cases took
      exact ⟨small.stdout,small.stderr,holds⟩
    · cases took

end Exec

/-! ## The evidence -/

theorem Task.evidence_text (task : Task) (writable : o.Writable) :
    ∃ text, canonicalJsonBytes (task.evidence o).value = .ok text ∧ text.utf8ByteSize ≤ evidenceBytesMax := by
  refine ⟨_,canonicalJsonBytes_exact (evidence_exact task.host task.loaded writable),?_⟩
  rw [canonicalText_size]
  exact evidence_size task.host task.loaded writable

theorem Task.conclude_fits (task : Task) (writable : o.Writable) : task.conclude o ≠ .ended (.error .oversized):= by
  obtain ⟨text,written,short⟩ := task.evidence_text writable
  simp only [Task.conclude,written]
  split
  · simp
  · simp_all
  · rename_i same
    cases same
    rw [if_neg (by omega)]
    simp

structure Boundary.Fits (b : Boundary) : Prop where
  exec : b.exec.Small
  stage : b.stage ≠ .ended (.error .oversized)

theorem Boundary.Fits.step {task : Task} {b b' : Boundary} (fits : b.Fits) {turn : Turn} (took : b.step task turn = some b') :
    b'.Fits := by
  cases turn with
  | child event =>
    obtain ⟨exec,step,rfl⟩ := Option.map_eq_some_iff.mp took
    exact ⟨fits.exec.step step,fits.stage⟩
  | collect =>
    simp only [Boundary.step,Boundary.collect] at took
    split at took
    · cases took
      exact ⟨fits.exec,by simp⟩
    · rename_i outcome _ returned
      cases took
      have holds := fits.exec.main
      rw [returned] at holds
      exact ⟨fits.exec,task.conclude_fits holds⟩
    · cases took
  | write result =>
    simp only [Boundary.step,Boundary.write] at took
    split at took
    · cases took
      exact ⟨fits.exec,by simp⟩
    · cases took
      exact ⟨fits.exec,by simp⟩
    · cases took
  | acknowledge result =>
    simp only [Boundary.step,Boundary.acknowledge] at took
    split at took
    · cases took
      exact ⟨fits.exec,by simp⟩
    · cases took
      exact ⟨fits.exec,by simp⟩
    · cases took

theorem Reached.fits {task : Task} {allowed : Boundary → Turn → Prop} (run : Reached task allowed b) : b.Fits := by
  induction run with
  | start => exact ⟨Exec.small_start,by simp⟩
  | step before may taken ih => exact ih.step taken

theorem sampleOutcome_writable : sampleOutcome.Writable :=
  ⟨⟨sampleTime,rfl⟩,⟨sampleTime,rfl⟩,Nat.le_refl _,Nat.zero_le _,Nat.zero_le _⟩

/-- The arguments have a check of their own, and nothing else looks at them. -/
theorem validateStaticRequest_argv {host : Host} {request : ProcessRequest}
    (valid : validateStaticRequest host request = .ok stdinBytes) (some_ : argv ≠ [])
    (few : argv.length ≤ 64) (fine : argv.all argumentText = true) :
    validateStaticRequest host { request with argv } = .ok stdinBytes := by
  simp only [validateStaticRequest,guard_eq_ok] at valid ⊢
  obtain ⟨identity,policy,limits,executable,stdin,first,second,third,fourth,contained,-,-,rest⟩ := valid
  exact ⟨identity,policy,limits,executable,stdin,first,second,third,fourth,contained,by simp [some_,few],by simp [fine],rest⟩

theorem charBytes_replicate (n : Nat) (c : Char) : charBytes (List.replicate n c) = n * c.utf8Size := by
  induction n with
  | zero => simp [charBytes]
  | succ n ih => rw [replicate_succ,charBytes,ih,Nat.succ_mul,Nat.add_comm]

theorem quoted_replicate (n : Nat) (c : Char) :
    charBytes ((List.replicate n c).flatMap quoteChar) = n * charBytes (quoteChar c) := by
  induction n with
  | zero => simp [charBytes]
  | succ n ih => rw [replicate_succ,flatMap_cons,charBytes_append,ih,Nat.succ_mul,Nat.add_comm]

theorem itemSizes_replicate (n : Nat) (item : Json) :
    itemSizes decimal (List.replicate n item) = n * (size decimal item + 1) := by
  induction n with
  | zero => simp [itemSizes]
  | succ n ih => rw [replicate_succ,itemSizes,ih,Nat.succ_mul,Nat.add_comm]

theorem fieldSizes_le (fields : List (String × Json)) : fieldSizes decimal fields ≤ memberSizes decimal fields := by
  induction fields with
  | nil => simp [fieldSizes]
  | cons f rest ih =>
    simp only [fieldSizes,memberSizes]
    omega

/-- A control character takes one byte, and six where it is quoted. -/
def control : Char := Char.ofNat 1

def wideArgument : String := String.ofList (List.replicate 4096 control)

def wideRequest : ProcessRequest := { sampleRequest with argv := List.replicate 64 wideArgument }

theorem wideArgument_fine : argumentText wideArgument = true := by
  have bytes : wideArgument.utf8ByteSize = 4096 * control.utf8Size := by
    rw [wideArgument,utf8ByteSize_ofList,charBytes_replicate]
  have chars : wideArgument.toList.all (fun c => c.toNat ≠ 0 && c ≠ '\r' && c ≠ '\n') = true := by
    rw [wideArgument,String.toList_ofList,all_replicate]
    decide
  have one : control.utf8Size = 1 := by decide
  rw [argumentText,chars,Bool.and_true,bytes,one]
  decide

theorem wideRequest_valid : validateStaticRequest sampleHost wideRequest = .ok [] := by
  refine validateStaticRequest_argv sample_valid (by simp) (by simp) ?_
  rw [all_replicate,wideArgument_fine]
  simp

theorem wideArgument_size : size decimal (.str wideArgument) = 24578 := by
  have six : charBytes (quoteChar control) = 6 := by decide
  rw [size_text,wideArgument,String.toList_ofList,quoted_replicate,six]

/-- What both streams brought. -/
def floodedOutcome (bytes : Bytes) : ProcessOutcome :=
  { sampleOutcome with standardOutput := completeStream bytes, standardError := completeStream bytes }

theorem flooded_stream_size (host : Host) {bytes : Bytes} (full : bytes.length = 1048576) :
    1398104 ≤ size decimal (rawStreamEvidence host (completeStream bytes)).value := by
  have text := size_base64 bytes
  have part : size decimal (.str (Base64.encode bytes)) ≤ size decimal (rawStreamEvidence host (completeStream bytes)).value :=
    size_field_le (f := ("base64",.str (Base64.encode bytes))) (by simp [rawStreamEvidence,completeStream])
  omega

theorem wide_size (host : Host) {bytes : Bytes} (full : bytes.length = 1048576) :
    evidenceBytesMax < size decimal (evidenceOf host wideRequest [] (floodedOutcome bytes)).value := by
  have stream := flooded_stream_size host full
  have argv : size decimal (.arr (wideRequest.argv.map .str)) = 1573057 := by
    have items : wideRequest.argv.map Json.str = List.replicate 64 (.str wideArgument) := map_replicate
    rw [items,size_arr_eq,itemSizes_replicate,wideArgument_size]
  have fields := evidence_fields (evidenceOf host wideRequest [] (floodedOutcome bytes))
  have total := fieldSizes_le (evidenceOf host wideRequest [] (floodedOutcome bytes)).fields
  have parts : size decimal (.arr (wideRequest.argv.map .str)) +
      size decimal (rawStreamEvidence host (completeStream bytes)).value +
      size decimal (rawStreamEvidence host (completeStream bytes)).value ≤
        fieldSizes decimal (evidenceOf host wideRequest [] (floodedOutcome bytes)).fields := by
    rw [fields]
    dsimp only [evidenceOf,floodedOutcome]
    omega
  rw [argv] at parts
  rw [ProcessEvidence.value,size_obj_eq,evidenceBytesMax]
  omega

end Neurobro.Runner
