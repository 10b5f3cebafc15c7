import Neurobro.Data.Results
import Neurobro.Execution.Child
import Neurobro.Execution.Request

/-! The evidence of an admitted request is a document that can be written: its numbers are
exact and its text is within the bound. -/
namespace Neurobro.Runner

open Json JsonText List

/-! ## What an admitted request promises -/

theorem readCanonical_ok {text : String} {request : ProcessRequest} (read : readCanonical text = .ok request) :
    ∃ value, parse text = some value ∧ canonicalJsonBytes value = .ok text ∧ readRequest value = some request := by
  simp only [readCanonical] at read
  split at read
  · contradiction
  · rename_i value parsed
    split at read
    · contradiction
    · rename_i canonical written
      split at read
      · contradiction
      · rename_i same
        split at read
        · contradiction
        · rename_i request' typed
          cases read
          exact ⟨value,parsed,by rw [written,Classical.not_not.mp same],typed⟩

theorem loadRequest_ok {host : Host} {request : ProcessRequest}
    (loaded : loadRequest host requestBytes = .ok (request,stdinBytes)) :
    requestBytes.length ≤ requestBytesMax ∧ (∃ text, fromUtf8 requestBytes = some text ∧ readCanonical text = .ok request) ∧
      validateStaticRequest host request = .ok stdinBytes := by
  simp only [loadRequest,guard_eq_ok] at loaded
  obtain ⟨size,_,loaded⟩ := loaded
  split at loaded
  · contradiction
  · rename_i text decoded
    split at loaded
    · contradiction
    · rename_i request' read
      obtain ⟨bytes,valid,same⟩ := map_ok loaded
      cases same
      exact ⟨by omega,⟨text,decoded,read⟩,valid⟩

/-- What the evidence of a request is made of. -/
structure Told (request : ProcessRequest) : Prop where
  executable : sha256Text request.executable.sha256 = true
  stdin : sha256Text request.stdin.sha256 = true
  stdinBytes : request.stdin.bytes ≤ stdinBytesMax

theorem validateStaticRequest_told {host : Host} {request : ProcessRequest}
    (valid : validateStaticRequest host request = .ok stdinBytes) : Told request := by
  simp only [validateStaticRequest,guard_eq_ok] at valid
  obtain ⟨_,_,_,executable,stdin,_,_,_,_,_,_,_,_,valid⟩ := valid
  split at valid
  · contradiction
  · simp only [validateInput,guard_eq_ok] at valid
    exact ⟨by simpa using executable,by simpa using stdin,by omega⟩

theorem mem_of_mapM {α β : Type} {f : α → Option β} {xs : List α} {ys : List β} (all : xs.mapM f = some ys) :
    ∀ y ∈ ys, ∃ x ∈ xs, f x = some y := by
  induction xs generalizing ys with
  | nil =>
    cases all
    simp
  | cons x rest ih =>
    simp only [mapM_cons,Option.bind_eq_bind,Option.bind_eq_some_iff,Option.pure_def,Option.some.injEq] at all
    obtain ⟨y,first,ys',later,rfl⟩ := all
    intro z in_
    rcases mem_cons.mp in_ with rfl | there
    · exact ⟨x,mem_cons_self,first⟩
    · obtain ⟨x',in',same⟩ := ih later z there
      exact ⟨x',mem_cons_of_mem _ in',same⟩

/-- A field of a record is a part of its document. -/
theorem structFields_size {names : List String} {value item : Json} {values : List Json}
    (fields : structFields names value = some values) (in_ : item ∈ values) : size decimal item ≤ size decimal value := by
  simp only [structFields] at fields
  split at fields
  · split at fields
    · obtain ⟨name,_,found⟩ := mem_of_mapM fields item in_
      rw [field?,Option.map_eq_some_iff] at found
      obtain ⟨f,here,rfl⟩ := found
      exact size_field_le (mem_of_find?_eq_some here)
    · contradiction
  · split at fields
    · cases fields
      exact size_item_le in_
    · contradiction
  · contradiction

theorem readStrings_eq {value : Json} {texts : List String} (read : readStrings value = some texts) :
    value = .arr (texts.map .str) := by
  cases value with
  | arr items =>
    simp only [readStrings] at read
    congr 1
    induction items generalizing texts with
    | nil =>
      cases read
      rfl
    | cons item rest ih =>
      simp only [mapM_cons,Option.bind_eq_bind,Option.bind_eq_some_iff,Option.pure_def,Option.some.injEq] at read
      obtain ⟨text,first,texts',later,rfl⟩ := read
      cases item with
      | str s =>
        cases first
        rw [map_cons,← ih later]
      | _ => simp [readString] at first
  | _ => simp [readStrings] at read

theorem bind_some {α β : Type} {m : Option α} {f : α → Option β} {b : β} (h : (m >>= f) = some b) :
    ∃ a, m = some a ∧ f a = some b := Option.bind_eq_some_iff.mp h

theorem readRequest_argv {value : Json} {request : ProcessRequest} (typed : readRequest value = some request) :
    size decimal (.arr (request.argv.map .str)) ≤ size decimal value := by
  obtain ⟨values,fields,typed⟩ := bind_some typed
  obtain ⟨_,_,typed⟩ := bind_some typed
  obtain ⟨_,_,typed⟩ := bind_some typed
  obtain ⟨_,_,typed⟩ := bind_some typed
  obtain ⟨_,_,typed⟩ := bind_some typed
  obtain ⟨_,_,typed⟩ := bind_some typed
  obtain ⟨argv,read,typed⟩ := bind_some typed
  have same : request.argv = argv := by
    obtain ⟨_,_,typed⟩ := bind_some typed
    obtain ⟨_,_,typed⟩ := bind_some typed
    obtain ⟨_,_,typed⟩ := bind_some typed
    obtain ⟨_,_,typed⟩ := bind_some typed
    obtain ⟨_,_,typed⟩ := bind_some typed
    obtain ⟨_,_,typed⟩ := bind_some typed
    cases typed
    rfl
  obtain ⟨item,there,texts⟩ := Option.bind_eq_some_iff.mp read
  rw [same,← readStrings_eq texts]
  exact structFields_size fields (mem_of_getElem? there)

theorem loadRequest_argv {host : Host} {request : ProcessRequest}
    (loaded : loadRequest host requestBytes = .ok (request,stdinBytes)) :
    size decimal (.arr (request.argv.map .str)) ≤ requestBytesMax := by
  obtain ⟨bound,⟨text,decoded,read⟩,_⟩ := loadRequest_ok loaded
  obtain ⟨value,_,written,typed⟩ := readCanonical_ok read
  have part := readRequest_argv typed
  simp only [canonicalJsonBytes] at written
  split at written
  · have same := Except.ok.inj written
    have whole : size decimal value = requestBytes.length := by
      rw [← canonicalText_size (o := scalarOrder),same,← utf8_length,utf8_of_fromUtf8 decoded]
    omega
  · contradiction

/-! ## Plain texts -/

theorem sha256Text_plain (is_ : sha256Text s = true) : s.toList.length = 64 ∧ ∀ c ∈ s.toList, plainChar c = true:= by
  simp only [sha256Text,Bool.and_eq_true,decide_eq_true_eq,all_eq_true] at is_
  refine ⟨is_.1,fun c in_ => ?_⟩
  have hex := is_.2 c in_
  have low : '0'.toNat = 48 ∧ '9'.toNat = 57 ∧ 'a'.toNat = 97 ∧ 'f'.toNat = 102 := by decide
  simp only [lowerHex,Bool.or_eq_true,decide_eq_true_eq,Char.le_def,UInt32.le_iff_toNat_le] at hex
  have whole : ∀ c : Char, c.toNat = c.val.toNat := fun _ => rfl
  simp only [← whole] at hex
  simp only [plainChar,Bool.and_eq_true,decide_eq_true_eq]
  refine ⟨⟨⟨by omega,by omega⟩,?_⟩,?_⟩
  · rintro rfl
    revert hex
    decide
  · rintro rfl
    revert hex
    decide

theorem mark_plain (is_ : Base64.mark c = true) : plainChar c = true := by
  have all : (Base64.alphabet.all plainChar) = true := by decide +kernel
  simp only [Base64.mark,Bool.or_eq_true,decide_eq_true_eq,contains_iff_mem] at is_
  rcases is_ with rfl | in_
  · decide
  · exact all_eq_true.mp all c in_

theorem size_base64 (bytes : Bytes) : size decimal (.str (Base64.encode bytes)) = 4 * ((bytes.length + 2) / 3) + 2 := by
  have letters : (Base64.encode bytes).toList = Base64.letters bytes := by simp [Base64.encode]
  have plain : ∀ c ∈ (Base64.encode bytes).toList, plainChar c = true := by
    rw [letters]
    exact fun c in_ => mark_plain (Base64.mark_letters bytes c in_)
  rw [size_plain plain,letters,Base64.letters_length]

theorem padded_plain (width n : Nat) : ∀ c ∈ (padded width n).toList, plainChar c = true := by
  intro c in_
  simp only [padded,String.toList_ofList,mem_append,mem_replicate] at in_
  rcases in_ with ⟨_,rfl⟩ | digit
  · decide
  · exact digits_plain n c digit

theorem padded_length (wide : width ≤ 5) (small : n < 100000) : (padded width n).toList.length ≤ 5 := by
  have digits : n.repr.toList.length ≤ 5 := by
    rw [Nat.toList_repr]
    exact (Nat.length_toDigits_le_iff (by omega) (by omega)).mpr small
  simp only [padded,String.toList_ofList,length_append,length_replicate]
  omega

theorem utcText_plain (t : SystemTime) : ∀ c ∈ (utcText t).toList, plainChar c = true := by
  have field := fun width (n : UInt16) => all_eq_true.mpr (padded_plain width n.toNat)
  have marks : "-".toList.all plainChar = true ∧ "T".toList.all plainChar = true ∧ ":".toList.all plainChar = true ∧
      ".".toList.all plainChar = true ∧ "Z".toList.all plainChar = true := by decide
  apply all_eq_true.mp
  simp only [utcText,String.toList_append,all_append,field,marks,Bool.and_self]

theorem utcText_length (t : SystemTime) : (utcText t).toList.length ≤ 42 := by
  have field {width : Nat} (wide : width ≤ 5) (n : UInt16) : (padded width n.toNat).toList.length ≤ 5 :=
    padded_length wide (Nat.lt_trans n.toNat_lt (by decide))
  have year := field (show 4 ≤ 5 by omega) t.year
  have milliseconds := field (show 3 ≤ 5 by omega) t.milliseconds
  have two := @field 2 (by omega)
  have month := two t.month
  have day := two t.day
  have hour := two t.hour
  have minute := two t.minute
  have second := two t.second
  have marks : "-".toList.length = 1 ∧ "T".toList.length = 1 ∧ ":".toList.length = 1 ∧ ".".toList.length = 1 ∧
      "Z".toList.length = 1 := by decide
  simp only [utcText,String.toList_append,length_append,marks]
  omega

/-! ## The evidence -/

theorem size_nat {n most : Nat} (bound : n ≤ most) (small : most ≤ 9007199254740991) : size decimal (whole n) ≤ 17 :=
  size_whole (safe_nat bound small)

theorem size_exitCode (code : Option Int32) : size decimal (exitCodeValue code) ≤ 17 := by
  cases code with
  | none =>
    rw [exitCodeValue,size,stringify]
    decide
  | some code => exact size_whole (safe_code code)

theorem TerminalState.size_text (state : TerminalState) : size decimal (.str state.text) ≤ 30 := by
  rw [size,stringify]
  cases state <;> decide

theorem size_digest (is_ : sha256Text s = true) : size decimal (.str s) = 66 := by
  rw [size_plain (sha256Text_plain is_).2,(sha256Text_plain is_).1]

theorem size_time (t : SystemTime) : size decimal (.str (utcText t)) ≤ 44 := by
  rw [size_plain (utcText_plain t)]
  have := utcText_length t
  omega

theorem stream_size (host : Host) {stream : CapturedStream} (bound : stream.bytes.length ≤ 1048576) :
    size decimal (rawStreamEvidence host stream).value ≤ 1398400 := by
  have keys : keyRoom ["base64","bytes","sha256","complete","truncated"] ≤ 60 := by decide
  have text := size_base64 stream.bytes
  have bytes := size_nat bound (by decide)
  have digest := size_digest (host.format stream.bytes)
  have complete : size decimal (.bool stream.complete) ≤ 5 := size_bool _
  have truncated : size decimal (.bool stream.truncated) ≤ 5 := size_bool _
  have size_ : size decimal (.obj [("base64",.str (Base64.encode stream.bytes)),("bytes",whole stream.bytes.length),
    ("sha256",.str (host.sha256Hex stream.bytes)),("complete",.bool stream.complete),("truncated",.bool stream.truncated)]) ≤ _ :=
    size_obj _
  simp only [map_cons,map_nil,fieldSizes] at size_
  simp only [RawStreamEvidence.value,rawStreamEvidence]
  omega

/-- What the outcome of an admitted request is written from. -/
structure ProcessOutcome.Writable (o : ProcessOutcome) : Prop where
  started : ∃ t, o.startedUtc = utcText t
  finished : ∃ t, o.finishedUtc = utcText t
  count : o.processStartCount ≤ 1
  stdout : o.standardOutput.bytes.length ≤ stdoutBytesMax
  stderr : o.standardError.bytes.length ≤ stderrBytesMax

theorem evidence_keys (evidence : ProcessEvidence) : keyRoom (evidence.fields.map Prod.fst) ≤ 400 := by
  have keys : keyRoom ["schema","requestBytes","requestSha256","executableSha256Observed","argv","stdinBytes","stdinSha256",
      "startedUtc","finishedUtc","processStartCount","terminalState","exitCodeKnown","exitCode","outputComplete",
      "standardOutput","standardError","retryPerformed","cleanupPerformed"] ≤ 400 := by decide
  exact keys

theorem evidence_fields (evidence : ProcessEvidence) : fieldSizes decimal evidence.fields =
    size decimal (.str evidence.schema) + size decimal (whole evidence.requestBytes) +
      size decimal (.str evidence.requestSha256) + size decimal (.str evidence.executableSha256Observed) +
      size decimal (.arr (evidence.argv.map .str)) + size decimal (whole evidence.stdinBytes) +
      size decimal (.str evidence.stdinSha256) + size decimal (.str evidence.startedUtc) +
      size decimal (.str evidence.finishedUtc) + size decimal (whole evidence.processStartCount) +
      size decimal (.str evidence.terminalState.text) + size decimal (.bool evidence.exitCodeKnown) +
      size decimal (exitCodeValue evidence.exitCode) + size decimal (.bool evidence.outputComplete) +
      size decimal evidence.standardOutput.value + size decimal evidence.standardError.value +
      size decimal (.bool evidence.retryPerformed) + size decimal (.bool evidence.cleanupPerformed) := by
  simp only [ProcessEvidence.fields,fieldSizes,Nat.add_assoc,Nat.add_zero]

theorem evidence_size (host : Host) {requestBytes stdinBytes : Bytes} {request : ProcessRequest}
    (loaded : loadRequest host requestBytes = .ok (request,stdinBytes)) (writable : o.Writable) :
    size decimal (evidenceOf host request requestBytes o).value ≤ evidenceBytesMax := by
  obtain ⟨bound,_,valid⟩ := loadRequest_ok loaded
  have told := validateStaticRequest_told valid
  obtain ⟨⟨t,started⟩,⟨t',finished⟩,count,stdout,stderr⟩ := writable
  have schema : size decimal (.str processEvidenceSchema) ≤ 100 := by
    rw [size,stringify]
    decide
  have length := size_nat bound (by decide)
  have digest := size_digest (host.format requestBytes)
  have executable := size_digest told.executable
  have argv := loadRequest_argv loaded
  have stdinLength := size_nat told.stdinBytes (by decide)
  have stdinDigest := size_digest told.stdin
  have start : size decimal (.str o.startedUtc) ≤ 44 := started ▸ size_time t
  have finish : size decimal (.str o.finishedUtc) ≤ 44 := finished ▸ size_time t'
  have starts := size_nat count (by decide)
  have state := o.terminalState.size_text
  have known : size decimal (.bool o.exitCodeKnown) ≤ 5 := size_bool _
  have code := size_exitCode o.exitCode
  have done : size decimal (.bool (o.standardOutput.complete && o.standardError.complete)) ≤ 5 := size_bool _
  have no : size decimal (.bool false) ≤ 5 := size_bool _
  have out := stream_size host stdout
  have err := stream_size host stderr
  have keys := evidence_keys (evidenceOf host request requestBytes o)
  have fields := evidence_fields (evidenceOf host request requestBytes o)
  have whole_ : size decimal (.obj (evidenceOf host request requestBytes o).fields) ≤ _ := size_obj _
  have total : fieldSizes decimal (evidenceOf host request requestBytes o).fields ≤ 3000000 := by
    rw [fields]
    dsimp only [evidenceOf,rawStreamEvidence,requestBytesMax] at *
    omega
  rw [ProcessEvidence.value,evidenceBytesMax]
  omega

theorem stream_exact (host : Host) (bound : stream.bytes.length ≤ 1048576) :
    Exact (rawStreamEvidence host stream).value := by
  refine ⟨by simp,(exactFields_all _).mpr ?_⟩
  simp [rawStreamEvidence,Exact,whole_exact (safe_nat bound (by decide))]

theorem exitCode_exact (code : Option Int32) : Exact (exitCodeValue code) := by
  cases code with
  | none => trivial
  | some code => exact whole_exact (safe_code code)

theorem evidence_exact (host : Host) {request : ProcessRequest}
    (loaded : loadRequest host requestBytes = .ok (request,stdinBytes)) (writable : o.Writable) :
    Exact (evidenceOf host request requestBytes o).value := by
  obtain ⟨bound,_,valid⟩ := loadRequest_ok loaded
  have told := validateStaticRequest_told valid
  have argv : Exact (.arr (request.argv.map .str)) := (exactItems_all _).mpr (by simp [Exact])
  refine ⟨by simp [ProcessEvidence.fields],(exactFields_all _).mpr ?_⟩
  simp only [ProcessEvidence.fields,forall_mem_cons,evidenceOf]
  exact ⟨trivial,whole_exact (safe_nat bound (by decide)),trivial,trivial,argv,whole_exact (safe_nat told.stdinBytes (by decide)),
    trivial,trivial,trivial,whole_exact (safe_nat writable.count (by decide)),trivial,trivial,exitCode_exact _,trivial,
    stream_exact host writable.stdout,stream_exact host writable.stderr,trivial,trivial,by simp⟩

end Neurobro.Runner
