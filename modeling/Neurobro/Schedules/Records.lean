import Neurobro.Jobs.Contracts

/-! Schedules of the native cron: their stored records and the checks that fields,
admissions and results of the native side pass. Instants are milliseconds. -/
namespace Neurobro.Schedules

open Agent (trim)
open Jobs (ToolContext)

abbrev Err := String

/-- What the coordinator takes from its platform: the hash and the collation behind
`digest`, and the text of a number. -/
structure Host where
  sha256 : String → String
  localeCompare : String → String → Ordering
  numberText : Rat → String

def Host.digest (h : Host) (value : Json) : String :=
  h.sha256 ((value.sortedKeys h.localeCompare).stringify h.numberText)

/-- The number of a drawn tool token. -/
abbrev Token := Nat

/-- A schedule credential: drawn by the coordinator, or any other text. -/
inductive Credential where
  | issued (draw : Nat)
  | text (text : String)
  deriving DecidableEq

structure ScheduleSpec where
  key : String
  name : String
  schedule : String
  instruction : String
  deriving DecidableEq

inductive CallbackState where
  | pending
  | verified
  | unknown
  deriving DecidableEq

structure Execution where
  runId : String
  token : Token
  admittedAt : Nat
  revoked : Bool := false
  manifest : Option Json := none
  callbackState : Option CallbackState := none

inductive ScheduleState where
  | prepared
  | active
  | paused
  | cancelled
  deriving DecidableEq

inductive Control where
  | pause
  | resume
  | cancel
  deriving DecidableEq

inductive BindingState where
  | verified
  | unknown
  deriving DecidableEq

inductive BindingReason where
  | restoreUnconfirmed
  | restoreDeferred
  deriving DecidableEq

structure NativeBinding where
  state : BindingState
  checkedAt : Nat
  reason : Option BindingReason
  deriving DecidableEq

inductive Cleanup where
  | pending
  | verified
  | unknown
  deriving DecidableEq

inductive CancellationReason where
  | nativeJobIdentityUnknown
  | nativeCancelUnconfirmed
  deriving DecidableEq

structure HostCancellation where
  requestedAt : Nat
  nativeCleanup : Cleanup
  reason : Option CancellationReason := none
  deriving DecidableEq

structure ScheduleRecord where
  id : String
  key : String
  binding : ToolContext
  spec : ScheduleSpec
  credential : Credential
  nativeJobId : Option String := none
  state : ScheduleState
  executions : Table String Execution := ∅
  createdAt : Nat
  pendingControl : Option Control := none
  nativeBinding : Option NativeBinding := none
  hostCancellation : Option HostCancellation := none

/-! ## Fields -/

/-- Control characters; text of several lines may hold tab, line feed and return. -/
def forbidden (multiline : Bool) (c : Char) : Bool :=
  c.toNat < 32 && !(multiline && (c.toNat = 9 || c.toNat = 10 || c.toNat = 13))

def text (value : String) (max : Nat := 255) (multiline : Bool := false) : Except Err String :=
  if trim value = "" || utf16Length value > max || value.toList.any (forbidden multiline) then
    .error "Invalid schedule field"
  else .ok value

def textField (value : Option Json) : Except Err String :=
  match value with
  | some (.str s) => text s
  | _ => .error "Invalid schedule field"

def object (value : Option Json) : Except Err Json :=
  match value with
  | some (.obj fields) => .ok (.obj fields)
  | _ => .error "Invalid schedule response"

def isIdentityChar (c : Char) : Bool := c.isAlphanum || c = '.' || c = '_' || c = '-'

def executionId (value : Option Json) : Except Err String := do
  let result ← textField value
  if !result.toList.all isIdentityChar || ["__proto__","constructor","prototype"].contains result then
    .error "Invalid cron execution identity"
  else .ok result

def Credential.wellFormed : Credential → Bool
  | .issued _ => true
  | .text s => s.toList.length = 43 && s.toList.all fun c => c.isAlphanum || c = '_' || c = '-'

def scopeEqual (a b : ToolContext) : Bool := a.toTaskBinding = b.toTaskBinding

def checkSpec (input : ScheduleSpec) : Except Err ScheduleSpec := do
  let key ← text input.key
  let name ← text input.name
  let schedule ← text input.schedule 1024
  let instruction ← text input.instruction 32768 true
  .ok ⟨key,name,schedule,instruction⟩

def ScheduleSpec.json (spec : ScheduleSpec) : Json :=
  .obj [("key",.str spec.key),("name",.str spec.name),("schedule",.str spec.schedule),
    ("instruction",.str spec.instruction)]

def scheduleId (h : Host) (context : ToolContext) (spec : ScheduleSpec) : String :=
  let name := h.digest (.obj [("taskId",.str context.taskId),("key",.str spec.key)])
  "sch_" ++ String.ofList (name.toList.take 48)

def cronRun (job execution : String) : String := "cron:" ++ job ++ ":" ++ execution

/-! ## Admissions and results -/

/-- The job and the execution an admission names. -/
def admission (input : Json) : Except Err (String × String) := do
  let data ← object (some input)
  let job ← textField (data.field? "job_id")
  let execution ← executionId (data.field? "execution_id")
  let known : List String := ["job_id","execution_id","task_id"]
  if !Json.strictEq (data.field? "task_id") (some (.str (cronRun job execution))) ||
      data.keys.any (fun key => !known.contains key) then .error "Misbound cron admission"
  else .ok (job,execution)

def outcomes : List String := ["completed","failed","cancelled","interrupted","unknown"]

def displayField (h : Host) (value : Option Json) : String :=
  match value with
  | none => "undefined"
  | some value => value.display h.numberText

def isSha256 (s : String) : Bool :=
  s.toList.length = 64 && s.toList.all fun c => ('a' ≤ c && c ≤ 'f') || c.isDigit

def isNull (value : Option Json) : Bool := Json.strictEq value (some .null)

def outputField (h : Host) (native : Json) : Bool :=
  let file := native.field? "output_file"
  let sum := native.field? "output_sha256"
  (isNull file && isNull sum) || ((file.bind Json.str?).isSome && isSha256 (displayField h sum))

def present (value : Option Json) : Option Json :=
  match value with
  | some .null => none
  | value => value

/-- The native manifest inside an answer, without its `ok`. -/
def nativeManifest (response : Json) : Except Err Json := do
  let manifest ← object (((present (response.field? "manifest")).or (present (response.field? "result"))).or (some response))
  .ok (manifest.without "ok")

def checkManifest (h : Host) (job execution : String) (body native : Json) : Except Err Unit :=
  if !Json.strictEq (native.field? "job_id") (some (.str job)) ||
      !Json.strictEq (native.field? "execution_id") (some (.str execution)) ||
      !Json.strictEq (native.field? "task_id") (some (.str (cronRun job execution))) ||
      !outcomes.contains (displayField h (native.field? "outcome")) || !outputField h native ||
      h.digest native ≠ h.digest body then .error "Cron completion differs from exact native manifest"
  else .ok ()

end Neurobro.Schedules
