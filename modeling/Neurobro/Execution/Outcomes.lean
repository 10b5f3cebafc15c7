import Neurobro.Execution.Boundary

/-! What the execution of a child comes to: every outcome that it returns has evidence
that passes its own checks, unless a cap was overrun beside an exit code. -/
namespace Neurobro.Runner

open Json JsonText

/-! ## Captured streams -/

structure Capture.Good (maximum : Nat) (c : Capture) : Prop where
  idle : c.reader = .idle → c.exceeded = false
  reading : ∀ captured, c.reader = .reading captured → captured.length ≤ maximum ∧ c.exceeded = false
  ended : ∀ stream, c.reader = .ended (.ok stream) →
    stream.bytes.length ≤ maximum ∧ stream.truncated = c.exceeded ∧ stream.complete = !c.exceeded

theorem Capture.good_empty (maximum : Nat) : Capture.Good maximum {} :=
  ⟨fun _ => rfl,by simp,by simp⟩

theorem Capture.good_start (maximum : Nat) : Capture.Good maximum { reader := .reading [] } :=
  ⟨by simp,by simp,by simp⟩

theorem retained_le (maximum : Nat) (captured chunk : Bytes) (bound : captured.length ≤ maximum) :
    (captured ++ chunk.take (retained maximum captured chunk)).length ≤ maximum := by
  simp only [retained,List.length_append,List.length_take]
  omega

theorem Capture.Good.read {maximum : Nat} {c c' : Capture} (good : c.Good maximum)
    (took : c.read maximum chunk = some c') : c'.Good maximum := by
  simp only [Capture.read] at took
  split at took
  · cases took
    exact ⟨by simp,by simp,by simp⟩
  · rename_i captured chunk here
    obtain ⟨bound,clear⟩ := good.reading captured here
    by_cases last : chunk.bytes = []
    · rw [if_pos last] at took
      cases took
      exact ⟨by simp,by simp,by simp [bound,clear]⟩
    · rw [if_neg last] at took
      have kept := retained_le maximum captured chunk.bytes bound
      split at took
      · cases took
        exact ⟨by simp,by simp,by simpa [incompleteStream] using kept⟩
      · cases took
        refine ⟨by simp,?_,by simp⟩
        intro captured' is_
        cases is_
        exact ⟨kept,clear⟩
  · contradiction

/-! ## Outcomes -/

structure CapturedStream.Fits (stream : CapturedStream) (maximum : Nat) : Prop where
  bound : stream.bytes.length ≤ maximum
  either : stream.complete = !stream.truncated

/-- An outcome whose evidence passes its own checks. -/
structure ProcessOutcome.Proper (o : ProcessOutcome) (spawned : Bool) : Prop where
  count : o.processStartCount = if spawned then 1 else 0
  starts : o.terminalState.starts o.processStartCount = true
  known : o.terminalState = .knownExit → o.processStartCount = 1 ∧ o.exitCodeKnown = true ∧ o.exitCode.isSome ∧
    o.standardOutput.complete = true ∧ o.standardError.complete = true
  unknown : o.terminalState ≠ .knownExit → o.exitCodeKnown = false ∧ o.exitCode = none
  stdout : o.standardOutput.Fits stdoutBytesMax
  stderr : o.standardError.Fits stderrBytesMax
  started : ∃ t, o.startedUtc = utcText t

theorem ProcessOutcome.Proper.validates (proper : o.Proper spawned)
    (host : Host) (request : ProcessRequest) (requestBytes : Bytes) :
    validateEvidenceInvariants (evidenceOf host request requestBytes o) = .ok () := by
  have once : ¬1 < o.processStartCount := by
    have := proper.count
    split at this <;> omega
  have out : o.standardOutput.complete ≠ o.standardOutput.truncated := by simp [proper.stdout.either]
  have err : o.standardError.complete ≠ o.standardError.truncated := by simp [proper.stderr.either]
  by_cases is_ : o.terminalState = .knownExit
  · obtain ⟨one,code,some_,outDone,errDone⟩ := proper.known is_
    have there : o.exitCode ≠ none := by
      intro none_
      simp [none_] at some_
    simp only [outDone,errDone,ne_eq] at out err
    simp [validateEvidenceInvariants,evidenceOf,rawStreamEvidence,is_,one,code,there,outDone,errDone,out,err,
      TerminalState.starts]
  · obtain ⟨code,none_⟩ := proper.unknown is_
    simp [validateEvidenceInvariants,evidenceOf,rawStreamEvidence,is_,once,code,none_,out,err,proper.starts]

theorem completeStream_fits {bytes : Bytes} {maximum : Nat} (bound : bytes.length ≤ maximum) :
    (completeStream bytes).Fits maximum := ⟨bound,rfl⟩

theorem incompleteStream_fits {bytes : Bytes} {maximum : Nat} (bound : bytes.length ≤ maximum) :
    (incompleteStream bytes).Fits maximum := ⟨bound,rfl⟩

/-- An ending that claims no exit code. -/
theorem Exec.unresolved_proper {s : Exec} {state : TerminalState} {out err : CapturedStream}
    (count : n = if s.spawned then 1 else 0) (starts : state.starts n = true) (other : state ≠ .knownExit)
    (stdout : out.Fits stdoutBytesMax) (stderr : err.Fits stderrBytesMax) (stamped : ∃ t, s.startedUtc = utcText t) :
    (s.unresolved n state out err).Proper s.spawned :=
  ⟨count,starts,fun is_ => absurd is_ other,fun _ => ⟨rfl,rfl⟩,stdout,stderr,stamped⟩

/-- Texts with an error of the platform in them, or two. -/
theorem told_short (front middle : String) (e e' : HostError) (short : front.utf8ByteSize + middle.utf8ByteSize ≤ 100000) :
    (utf8 (front ++ e.text ++ middle ++ e'.text)).length ≤ stderrBytesMax := by
  have first := e.short
  have second := e'.short
  simp only [utf8_length,String.utf8ByteSize_append,stderrBytesMax]
  omega

theorem told_once (front back : String) (e : HostError) (short : front.utf8ByteSize + back.utf8ByteSize ≤ 100000) :
    (utf8 (front ++ e.text ++ back)).length ≤ stderrBytesMax := by
  have first := e.short
  simp only [utf8_length,String.utf8ByteSize_append,stderrBytesMax]
  omega

theorem Exec.resourceControlRefusal_proper {s : Exec} (count : n = if s.spawned then 1 else 0)
    (stamped : ∃ t, s.startedUtc = utcText t) (error : HostError) : (s.resourceControlRefusal n error).Proper s.spawned := by
  have bound := told_once "resource-control-refused: " "" error (by decide)
  rw [String.append_empty] at bound
  refine unresolved_proper count ?_ (by simp) (completeStream_fits (Nat.zero_le _)) (completeStream_fits bound) stamped
  have : n ≤ 1 := by split at count <;> omega
  simp [TerminalState.starts,this]

theorem Exec.unknownPreExecution_proper {s : Exec} (spawned : s.spawned = true) (stamped : ∃ t, s.startedUtc = utcText t)
 (short : (utf8 detail).length ≤ stderrBytesMax) : (s.unknownPreExecution detail).Proper s.spawned :=
  unresolved_proper (by simp [spawned]) rfl (by simp) (incompleteStream_fits (Nat.zero_le _)) (incompleteStream_fits short) stamped

/-! ## The main thread -/

/-- States that only an override gives. -/
def TerminalState.overriding (state : TerminalState) : Bool :=
  state = .deadlineKilled || state = .stdoutCapKilled || state = .stderrCapKilled || state = .unknown

def Settling.overriding : Settling → Bool
  | .overridden state => state.overriding
  | .uncertain detail => decide (detail.utf8ByteSize ≤ 65536)
  | .refuse _ => true

/-- What holds where the main thread stands. -/
def Main.Holds (s : Exec) : Main → Prop
  | .begin => s.spawned = false
  | .creatingJob | .spawning => s.spawned = false ∧ ∃ t, s.startedUtc = utcText t
  | .terminating why | .waiting why => s.spawned = true ∧ (∃ t, s.startedUtc = utcText t) ∧ why.overriding = true
  | .joiningStdin override _ | .joiningStdout override _ _ =>
    s.spawned = true ∧ (∃ t, s.startedUtc = utcText t) ∧ override.all TerminalState.overriding = true
  | .joiningStderr override _ _ standardOutput =>
    s.spawned = true ∧ (∃ t, s.startedUtc = utcText t) ∧ override.all TerminalState.overriding = true ∧
      s.stdout.reader = .ended (.ok standardOutput)
  | .closing outcome => outcome.Proper s.spawned
  | .returned (.ok outcome) => outcome.Proper s.spawned ∧ ∃ t, outcome.finishedUtc = utcText t
  | .returned (.error _) => s.spawned = false
  | _ => s.spawned = true ∧ ∃ t, s.startedUtc = utcText t

/-- No reader has failed. -/
def Capture.Heard (c : Capture) : Prop := ∀ error, c.reader ≠ .ended (.error error)

structure Exec.Inv (s : Exec) : Prop where
  heard : s.stdout.Heard ∧ s.stderr.Heard
  stdout : s.stdout.Good stdoutBytesMax
  stderr : s.stderr.Good stderrBytesMax
  main : s.main.Holds s

theorem Exec.inv_start : Exec.Inv {} := ⟨⟨by simp [Capture.Heard],by simp [Capture.Heard]⟩,Capture.good_empty _,Capture.good_empty _,rfl⟩

/-- What stands of the main thread rests on the readers only where it joins the last one. -/
theorem Main.Holds.transfer {main : Main} (holds : main.Holds s) (spawned : s'.spawned = s.spawned)
    (started : s'.startedUtc = s.startedUtc) (stdout : s'.stdout.reader = s.stdout.reader) : main.Holds s' := by
  cases main with
  | returned result => cases result <;> simpa only [Main.Holds,spawned] using holds
  | _ => simpa only [Main.Holds,spawned,started,stdout] using holds

theorem Exec.Inv.goto (inv : s.Inv) {main : Main} (holds : main.Holds s) : (s.goto main).Inv :=
  ⟨inv.heard,inv.stdout,inv.stderr,holds.transfer rfl rfl rfl⟩

theorem Exec.Inv.clock {fault : FaultMode} {s s' : Exec} (inv : s.Inv) {reading : Except HostError SystemTime}
    (calm : s.fatal fault (.clock reading) = false) (took : s.clock fault reading = some s') : s'.Inv := by
  have holds := inv.main
  simp only [Exec.clock] at took
  split at took
  · rename_i t here
    simp only [here,Main.Holds] at holds
    split at took
    · cases took
      refine inv.goto ⟨⟨by simp [syntheticSpawnRefusal,holds],rfl,by simp [syntheticSpawnRefusal],fun _ => ⟨rfl,rfl⟩,
        completeStream_fits (Nat.zero_le _),completeStream_fits (by decide),t,rfl⟩,t,rfl⟩
    · cases took
      exact ⟨inv.heard,inv.stdout,inv.stderr,holds,t,rfl⟩
  · rename_i error here
    cases took
    exact inv.goto (by simpa [here,Main.Holds] using holds)
  · rename_i outcome t here
    cases took
    simp only [here,Main.Holds] at holds
    exact inv.goto ⟨⟨holds.count,holds.starts,holds.known,holds.unknown,holds.stdout,holds.stderr,holds.started⟩,t,rfl⟩
  · cases took
    exact inv.goto (by simpa [Exec.fatal,Main.Holds] using calm)
  · contradiction

theorem Exec.Inv.job {fault : FaultMode} {s s' : Exec} (inv : s.Inv) {result : Except HostError Unit}
    (took : s.job fault result = some s') : s'.Inv := by
  have holds := inv.main
  simp only [Exec.job] at took
  split at took
  · rename_i here _
    cases took
    rw [here] at holds
    exact inv.goto holds
  · rename_i here _
    cases took
    rw [here] at holds
    exact inv.goto (resourceControlRefusal_proper (by simp [holds.1]) holds.2 _)
  · contradiction

theorem Exec.Inv.spawn {s s' : Exec} (inv : s.Inv) {result : Except HostError Unit} (took : s.spawn result = some s') :
    s'.Inv := by
  have holds := inv.main
  simp only [Exec.spawn] at took
  split at took
  · rename_i here
    cases took
    rw [here] at holds
    exact ⟨inv.heard,inv.stdout,inv.stderr,rfl,holds.2⟩
  · rename_i error here
    cases took
    rw [here] at holds
    have bound := told_once "spawn-refused: " "" error (by decide)
    rw [String.append_empty] at bound
    exact inv.goto (unresolved_proper (by simp [holds.1]) rfl (by simp) (completeStream_fits (Nat.zero_le _))
      (completeStream_fits bound) holds.2)
  · contradiction

theorem Exec.Inv.assign {fault : FaultMode} {s s' : Exec} (inv : s.Inv) {result : Except HostError Unit}
    (took : s.assign fault result = some s') : s'.Inv := by
  have holds := inv.main
  simp only [Exec.assign] at took
  split at took
  · rename_i here _
    cases took
    rw [here] at holds
    split
    · exact inv.goto ⟨holds.1,holds.2,rfl⟩
    · exact inv.goto holds
  · rename_i here _
    cases took
    rw [here] at holds
    exact inv.goto holds
  · contradiction

theorem Exec.Inv.resume {fault : FaultMode} {s s' : Exec} (inv : s.Inv) {result : Except HostError Unit}
    (took : s.resume fault result = some s') : s'.Inv := by
  have holds := inv.main
  simp only [Exec.resume] at took
  split at took
  · rename_i here
    cases took
    rw [here] at holds
    split
    · exact inv.goto ⟨holds.1,holds.2,by decide⟩
    · split
      · exact inv.goto ⟨holds.1,holds.2,by decide⟩
      · exact inv.goto holds
  · rename_i here
    cases took
    rw [here] at holds
    exact inv.goto ⟨holds.1,holds.2,rfl⟩
  · contradiction

theorem Exec.Inv.kill {fault : FaultMode} {s s' : Exec} (inv : s.Inv) {result : Except HostError Unit}
    (calm : s.fatal fault (.kill result) = false) (took : s.kill fault result = some s') : s'.Inv := by
  have holds := inv.main
  simp only [Exec.kill] at took
  split at took
  · rename_i here
    cases took
    rw [here] at holds
    exact inv.goto holds
  · rename_i here
    simp [Exec.fatal,here] at calm
  · rename_i here
    cases took
    rw [here] at holds
    exact inv.goto holds
  · rename_i error killError here
    rw [here] at holds
    have known : fault.unassigned = false := by simpa [Exec.fatal,here] using calm
    rw [known] at took
    cases took
    exact inv.goto (unknownPreExecution_proper holds.1 holds.2 (told_short _ _ error killError (by decide)))
  · contradiction

theorem FaultMode.injectedDetail_short (fault : FaultMode) : fault.injectedDetail.utf8ByteSize ≤ 100 := by
  simp only [FaultMode.injectedDetail]
  split <;> decide

theorem Exec.Inv.wait {fault : FaultMode} {s s' : Exec} (inv : s.Inv) {result : Except HostError ExitStatus}
    (calm : s.fatal fault (.wait result) = false) (took : s.wait fault result = some s') : s'.Inv := by
  have holds := inv.main
  simp only [Exec.wait] at took
  split at took
  · rename_i why status here
    cases took
    rw [here] at holds
    obtain ⟨spawned,stamped,fits⟩ := holds
    cases why with
    | refuse error => exact inv.goto (resourceControlRefusal_proper (by simp [spawned]) stamped error)
    | uncertain detail =>
      have short : (utf8 detail).length ≤ stderrBytesMax := by
        simp only [Settling.overriding,decide_eq_true_eq] at fits
        simp only [utf8_length,stderrBytesMax]
        omega
      exact inv.goto (unresolved_proper (by simp [spawned]) rfl (by simp) (completeStream_fits (Nat.zero_le _))
        (completeStream_fits short) stamped)
    | overridden state => exact inv.goto ⟨spawned,stamped,fits⟩
  · rename_i here
    simp [Exec.fatal,here] at calm
  · rename_i error status here
    rw [here] at holds
    split at took
    · cases took
      have detail := fault.injectedDetail_short
      have bound : (utf8 ("resource-control-refused: " ++ error.text ++ "; " ++ fault.injectedDetail ++
          "; fixture-safety-teardown-observed")).length ≤ stderrBytesMax := by
        have first := error.short
        simp only [utf8_length,String.utf8ByteSize_append,stderrBytesMax]
        have one : "resource-control-refused: ".utf8ByteSize = 26 := by decide
        have two : "; ".utf8ByteSize = 2 := by decide
        have three : "; fixture-safety-teardown-observed".utf8ByteSize = 34 := by decide
        omega
      exact inv.goto (unknownPreExecution_proper holds.1 holds.2 bound)
    · cases took
      exact inv.goto (resourceControlRefusal_proper (by simp [holds.1]) holds.2 error)
  · rename_i error waitError here
    rw [here] at holds
    have known : fault.unassigned = false := by simpa [Exec.fatal,here] using calm
    rw [known] at took
    cases took
    exact inv.goto (unknownPreExecution_proper holds.1 holds.2 (told_short _ _ error waitError (by decide)))
  · contradiction

/-- With no override, an exit code and the input written, the command has ended by itself. -/
theorem classify_cases (override : Option TerminalState) (known : Option ExitStatus) (stdinOk : Bool)
    (may : override.all TerminalState.overriding = true) :
    ((∃ code, classify override known stdinOk = (.knownExit,some code)) ∧ override = none ∧
      (known.bind ExitStatus.code).isSome = true ∧ stdinOk = true) ∨
    ∃ state, classify override known stdinOk = (state,none) ∧ state.overriding = true := by
  cases override with
  | some state => exact .inr ⟨state,by simp [classify],by simpa using may⟩
  | none =>
    cases stdinOk with
    | false => exact .inr ⟨.unknown,by simp [classify],rfl⟩
    | true =>
      cases is_ : known.bind ExitStatus.code with
      | none => exact .inr ⟨.unknown,by simp [classify,is_],rfl⟩
      | some code => exact .inl ⟨⟨code,by simp [classify,is_]⟩,rfl,rfl,rfl⟩

theorem TerminalState.overriding_starts {state : TerminalState} (may : state.overriding = true) :
    state.starts 1 = true ∧ state ≠ .knownExit := by
  cases state <;> simp_all [TerminalState.overriding,TerminalState.starts]

theorem Capture.Good.fits {maximum : Nat} {c : Capture} (good : c.Good maximum)
    (done : c.reader = .ended (.ok stream)) : stream.Fits maximum := by
  obtain ⟨bound,truncated,complete⟩ := good.ended stream done
  exact ⟨bound,by simp [truncated,complete]⟩

/-- The end of a command whose readers have both been joined. -/
theorem Exec.Inv.classified {s : Exec} (inv : s.Inv) {known : Option ExitStatus}
 (spawned : s.spawned = true)
    (stamped : ∃ t, s.startedUtc = utcText t) (may : override.all TerminalState.overriding = true)
    (out : s.stdout.reader = .ended (.ok standardOutput)) (err : s.stderr.reader = .ended (.ok standardError))
    (whole : override = none → (known.bind ExitStatus.code).isSome = true → stdinOk = true →
      s.stdout.exceeded = false ∧ s.stderr.exceeded = false) :
    (s.classified override known stdinOk standardOutput standardError).Proper s.spawned := by
  rcases classify_cases override known stdinOk may with ⟨⟨code,is_⟩,none_,has,written⟩ | ⟨state,is_,over_⟩
  · obtain ⟨outWhole,errWhole⟩ := whole none_ has written
    have outDone := (inv.stdout.ended _ out).2.2
    have errDone := (inv.stderr.ended _ err).2.2
    simp only [outWhole,errWhole,Bool.not_false] at outDone errDone
    refine ⟨by simp [Exec.classified,spawned],by simp [Exec.classified,is_,TerminalState.starts],?_,?_,
      inv.stdout.fits out,inv.stderr.fits err,stamped⟩
    · intro _
      exact ⟨rfl,by simp [Exec.classified,is_],by simp [Exec.classified,is_],outDone,errDone⟩
    · intro other
      simp [Exec.classified,is_] at other
  · obtain ⟨starts,other⟩ := TerminalState.overriding_starts over_
    refine ⟨by simp [Exec.classified,spawned],by simp [Exec.classified,is_,starts],?_,?_,
      inv.stdout.fits out,inv.stderr.fits err,stamped⟩
    · intro known_
      simp [Exec.classified,is_,other] at known_
    · intro _
      exact ⟨by simp [Exec.classified,is_],by simp [Exec.classified,is_]⟩

theorem Exec.Inv.look {s s' : Exec} (inv : s.Inv) (intact : s.torn = false)
    (took : s.look = some s') : s'.Inv := by
  have holds := inv.main
  simp only [Exec.look] at took
  split at took
  · rename_i here
    cases took
    rw [here] at holds
    exact ⟨⟨by simp [Capture.Heard],by simp [Capture.Heard]⟩,Capture.good_start _,Capture.good_start _,holds⟩
  · rename_i here
    cases took
    rw [here] at holds
    split
    · exact inv.goto ⟨holds.1,holds.2,rfl⟩
    · exact inv.goto holds
  · rename_i here
    cases took
    rw [here] at holds
    split
    · exact inv.goto ⟨holds.1,holds.2,rfl⟩
    · exact inv.goto holds
  · rename_i here
    rw [here] at holds
    split at took
    · cases took
      exact inv.goto holds
    · contradiction
  · rename_i here
    rw [here] at holds
    split at took
    · rename_i stream done
      cases took
      exact inv.goto ⟨holds.1,holds.2.1,holds.2.2,done⟩
    · rename_i error done
      exact absurd done (inv.heard.1 error)
    · contradiction
  · rename_i override known stdinOk standardOutput here
    rw [here] at holds
    obtain ⟨spawned,stamped,may,out⟩ := holds
    split at took
    · rename_i stream done
      cases took
      refine inv.goto (inv.classified spawned stamped may out done ?_)
      rintro rfl has rfl
      simpa [Exec.torn,here,Main.exits,has] using intact
    · rename_i error done
      exact absurd done (inv.heard.2 error)
    · contradiction
  · contradiction

theorem Exec.Inv.now {s s' : Exec} (inv : s.Inv) {late : Bool} (took : s.now late = some s') : s'.Inv := by
  have holds := inv.main
  simp only [Exec.now] at took
  split at took
  · rename_i here
    cases took
    rw [here] at holds
    split
    · exact inv.goto ⟨holds.1,holds.2,rfl⟩
    · exact inv.goto holds
  · contradiction

theorem Exec.Inv.tryWait {s s' : Exec} (inv : s.Inv) {result : Except HostError (Option ExitStatus)}
    (took : s.tryWait result = some s') : s'.Inv := by
  have holds := inv.main
  simp only [Exec.tryWait] at took
  split at took
  · rename_i here
    cases took
    rw [here] at holds
    exact inv.goto ⟨holds.1,holds.2,rfl⟩
  · rename_i here
    cases took
    rw [here] at holds
    exact inv.goto holds
  · rename_i here
    cases took
    rw [here] at holds
    exact inv.goto ⟨holds.1,holds.2,rfl⟩
  · contradiction

/-- A reader that has ended stays as it is. -/
theorem Capture.read_ended {maximum : Nat} {c c' : Capture}
    (took : c.read maximum chunk = some c') : ∃ captured, c.reader = .reading captured := by
  simp only [Capture.read] at took
  split at took
  · exact ⟨_,‹_›⟩
  · exact ⟨_,‹_›⟩
  · contradiction

theorem Capture.Heard.read {maximum : Nat} {c c' : Capture} (took : c.read maximum (.ok chunk) = some c') : c'.Heard:= by
  obtain ⟨captured,here⟩ := Capture.read_ended took
  simp only [Capture.read,here] at took
  intro error
  split at took
  · cases took
    simp
  · split at took <;> cases took <;> simp

/-- The first reader takes no step once the last one is joined. -/
theorem Main.Holds.read {s : Exec} (holds : s.main.Holds s) {maximum : Nat}
 (took : s.stdout.read maximum chunk = some stdout) : s.main.Holds { s with stdout } := by
  obtain ⟨captured,here⟩ := Capture.read_ended took
  cases is_ : s.main with
  | joiningStderr override known stdinOk standardOutput =>
    rw [is_] at holds
    simp [Main.Holds,here] at holds
  | returned result =>
    rw [is_] at holds
    cases result <;> exact holds
  | _ =>
    rw [is_] at holds
    exact holds

/-- One step of an execution that nothing tears. -/
theorem Exec.Inv.step {fault : FaultMode} {s s' : Exec} (inv : s.Inv) {event : Event} (intact : s.torn = false)
    (calm : s.fatal fault event = false) (took : s.step fault event = some s') : s'.Inv := by
  cases event with
  | clock reading => exact inv.clock calm took
  | job result => exact inv.job took
  | spawn result => exact inv.spawn took
  | assign result => exact inv.assign took
  | kill result => exact inv.kill calm took
  | wait result => exact inv.wait calm took
  | resume result => exact inv.resume took
  | look => exact inv.look intact took
  | now late => exact inv.now took
  | tryWait result => exact inv.tryWait took
  | stdoutRead chunk =>
    cases chunk with
    | error error => simp [Exec.fatal] at calm
    | ok chunk =>
      obtain ⟨stdout,read,rfl⟩ := Option.map_eq_some_iff.mp took
      exact ⟨⟨Capture.Heard.read read,inv.heard.2⟩,inv.stdout.read read,inv.stderr,inv.main.read read⟩
  | stderrRead chunk =>
    cases chunk with
    | error error => simp [Exec.fatal] at calm
    | ok chunk =>
      obtain ⟨stderr,read,rfl⟩ := Option.map_eq_some_iff.mp took
      exact ⟨⟨inv.heard.1,Capture.Heard.read read⟩,inv.stdout,inv.stderr.read read,inv.main.transfer rfl rfl rfl⟩
  | stdinEnds ok =>
    simp only [Exec.step] at took
    split at took
    · cases took
      exact ⟨inv.heard,inv.stdout,inv.stderr,inv.main.transfer rfl rfl rfl⟩
    · contradiction

/-! ## Once it has returned -/

/-- The main thread takes no step after its return, and the readers change nothing of its result. -/
theorem Exec.returned_stays {fault : FaultMode} {s s' : Exec} {event : Event} {result : Except String ProcessOutcome}
    (returned : s.main = .returned result) (took : s.step fault event = some s') :
    s'.main = .returned result ∧ s'.spawned = s.spawned := by
  cases event with
  | stdoutRead chunk =>
    obtain ⟨stdout,read,rfl⟩ := Option.map_eq_some_iff.mp took
    exact ⟨returned,rfl⟩
  | stderrRead chunk =>
    obtain ⟨stderr,read,rfl⟩ := Option.map_eq_some_iff.mp took
    exact ⟨returned,rfl⟩
  | stdinEnds ok =>
    simp only [Exec.step] at took
    split at took
    · cases took
      exact ⟨returned,rfl⟩
    · contradiction
  | _ => simp [Exec.step,Exec.clock,Exec.job,Exec.spawn,Exec.assign,Exec.kill,Exec.wait,Exec.resume,Exec.look,Exec.now,
      Exec.tryWait,returned] at took

end Neurobro.Runner
