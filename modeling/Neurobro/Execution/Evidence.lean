import Neurobro.Execution.Contract
import Neurobro.Data.JsonOrder

/-! The canonical documents of both sides: the evidence as a JSON value, how each side
writes a value, and how large evidence can get. -/
namespace Neurobro.Runner

open Json JsonText

def whole (n : Int) : Json := .num (.finite n)

def RawStreamEvidence.value (stream : RawStreamEvidence) : Json :=
  .obj [("base64",.str stream.base64),("bytes",whole stream.bytes),("sha256",.str stream.sha256),
    ("complete",.bool stream.complete),("truncated",.bool stream.truncated)]

def exitCodeValue : Option Int32 → Json
  | some code => whole code.toInt
  | none => .null

def ProcessEvidence.fields (evidence : ProcessEvidence) : List (String × Json) :=
  [("schema",.str evidence.schema),("requestBytes",whole evidence.requestBytes),
    ("requestSha256",.str evidence.requestSha256),
    ("executableSha256Observed",.str evidence.executableSha256Observed),
    ("argv",.arr (evidence.argv.map .str)),("stdinBytes",whole evidence.stdinBytes),
    ("stdinSha256",.str evidence.stdinSha256),("startedUtc",.str evidence.startedUtc),
    ("finishedUtc",.str evidence.finishedUtc),("processStartCount",whole evidence.processStartCount),
    ("terminalState",.str evidence.terminalState.text),("exitCodeKnown",.bool evidence.exitCodeKnown),
    ("exitCode",exitCodeValue evidence.exitCode),("outputComplete",.bool evidence.outputComplete),
    ("standardOutput",evidence.standardOutput.value),("standardError",evidence.standardError.value),
    ("retryPerformed",.bool evidence.retryPerformed),("cleanupPerformed",.bool evidence.cleanupPerformed)]

def ProcessEvidence.value (evidence : ProcessEvidence) : Json := .obj evidence.fields

/-! ## Writing -/

/-- `as_i64` or `as_u64` has an answer. -/
def integer64 : JsNumber → Bool
  | .finite q => q.den = 1 && decide (-9223372036854775808 ≤ q.num) && decide (q.num ≤ 18446744073709551615)
  | _ => false

/-- The sidecar's canonical text: keys in the order of their bytes. -/
def canonicalJsonBytes (value : Json) : Except String String :=
  if value.numbersAll integer64 then .ok (canonicalText scalarOrder value)
  else .error "canonical-number-refused: only integers are supported"

/-- The adapter's canonical text: keys in the order of their UTF-16 units. -/
def canonicalizeJson (value : Json) : Except String String :=
  if value.numbersAll wholeNumber then .ok (canonicalText utf16Order value) else .error "non-canonical-number"

theorem integer64_whole (n : JsNumber) (is_ : wholeNumber n = true) : integer64 n = true := by
  obtain ⟨q,rfl,good⟩ := wholeNumber_finite is_
  simp only [safe,decide_eq_true_eq] at good
  simp only [integer64,Bool.and_eq_true,decide_eq_true_eq]
  omega

theorem canonicalJsonBytes_exact {value : Json} (exact_ : Exact value) :
    canonicalJsonBytes value = .ok (canonicalText scalarOrder value) := by
  simp [canonicalJsonBytes,numbersAll_exact integer64_whole value exact_]

theorem canonicalizeJson_exact {value : Json} (exact_ : Exact value) :
    canonicalizeJson value = .ok (canonicalText utf16Order value) := by
  simp [canonicalizeJson,numbersAll_exact (fun _ is_ => is_) value exact_]

theorem whole_exact {n : Int} (is_ : safe (.finite n) = true) : Exact (whole n) := is_

theorem safe_nat {n most : Nat} (bound : n ≤ most) (small : most ≤ 9007199254740991) : safe (.finite (n : Int)) = true := by
  simp [safe]
  omega

theorem safe_code (code : Int32) : safe (.finite code.toInt) = true := by
  have low := code.le_toInt
  have high := code.toInt_lt
  simp [safe]
  omega

end Neurobro.Runner
