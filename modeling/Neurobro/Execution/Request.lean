import Neurobro.Execution.Evidence

/-! How the sidecar admits a request: canonical bytes, the typed record they stand for,
and the static validation of its fields. -/
namespace Neurobro.Runner

open Json JsonText

/-! ## The typed record -/

/-- A record is read from an object with just its fields, or from an array of them in order. -/
def structFields (names : List String) : Json → Option (List Json)
  | .obj fields =>
    if fields.all fun f => names.contains f.1 then names.mapM fun name => field? name (.obj fields) else none
  | .arr items => if items.length = names.length then some items else none
  | _ => none

def readString : Json → Option String
  | .str s => some s
  | _ => none

def readBool : Json → Option Bool
  | .bool b => some b
  | _ => none

/-- An unsigned integer of sixty-four bits. -/
def readU64 : Json → Option Nat
  | .num (.finite q) => if q.den = 1 ∧ 0 ≤ q.num ∧ q.num ≤ 18446744073709551615 then some q.num.toNat else none
  | _ => none

def readStrings : Json → Option (List String)
  | .arr items => items.mapM readString
  | _ => none

def readMap : Json → Option (List (String × String))
  | .obj fields => fields.mapM fun f => (readString f.2).map fun s => (f.1,s)
  | _ => none

def readAt {α : Type} (read : Json → Option α) (values : List Json) (i : Nat) : Option α := values[i]?.bind read

def executableKeys : List String := ["path","sha256"]
def stdinKeys : List String := ["encoding","base64","bytes","sha256"]
def environmentKeys : List String := ["inherit","allowlist","values"]
def limitKeys : List String :=
  ["requestBytesMax","stdinBytesMax","stdoutBytesMax","stderrBytesMax","evidenceBytesMax","concurrencyMax",
    "childProcessMax","deadlineMs","aggregateDeadlineMs","memoryBytesMax","cpuPercentMax"]
def containmentKeys : List String := ["consumer","operationRoot","requireCanonicalPaths"]
def markerKeys : List String := ["path","createNew"]
def evidencePathKeys : List String := ["path","schema","createNew"]
def requestKeys : List String :=
  ["schema","operationId","oneShot","retryAuthorized","executable","argv","stdin","environment","limits",
    "containment","attemptMarker","evidence"]

def readExecutable (value : Json) : Option ExecutableBinding := do
  let values ← structFields executableKeys value
  some { path := ← readAt readString values 0, sha256 := ← readAt readString values 1 }

def readStdin (value : Json) : Option StdinBinding := do
  let values ← structFields stdinKeys value
  some { encoding := ← readAt readString values 0
         base64 := ← readAt readString values 1
         bytes := ← readAt readU64 values 2
         sha256 := ← readAt readString values 3 }

def readEnvironment (value : Json) : Option EnvironmentBinding := do
  let values ← structFields environmentKeys value
  some { inherit := ← readAt readBool values 0
         allowlist := ← readAt readStrings values 1
         values := ← readAt readMap values 2 }

def readLimits (value : Json) : Option LimitBinding := do
  let values ← structFields limitKeys value
  some { requestBytesMax := ← readAt readU64 values 0
         stdinBytesMax := ← readAt readU64 values 1
         stdoutBytesMax := ← readAt readU64 values 2
         stderrBytesMax := ← readAt readU64 values 3
         evidenceBytesMax := ← readAt readU64 values 4
         concurrencyMax := ← readAt readU64 values 5
         childProcessMax := ← readAt readU64 values 6
         deadlineMs := ← readAt readU64 values 7
         aggregateDeadlineMs := ← readAt readU64 values 8
         memoryBytesMax := ← readAt readU64 values 9
         cpuPercentMax := ← readAt readU64 values 10 }

def readContainment (value : Json) : Option ContainmentBinding := do
  let values ← structFields containmentKeys value
  some { consumer := ← readAt readString values 0
         operationRoot := ← readAt readString values 1
         requireCanonicalPaths := ← readAt readBool values 2 }

def readMarker (value : Json) : Option CreateNewPath := do
  let values ← structFields markerKeys value
  some { path := ← readAt readString values 0, createNew := ← readAt readBool values 1 }

def readEvidencePath (value : Json) : Option EvidencePath := do
  let values ← structFields evidencePathKeys value
  some { path := ← readAt readString values 0
         schema := ← readAt readString values 1
         createNew := ← readAt readBool values 2 }

def readRequest (value : Json) : Option ProcessRequest := do
  let values ← structFields requestKeys value
  some { schema := ← readAt readString values 0
         operationId := ← readAt readString values 1
         oneShot := ← readAt readBool values 2
         retryAuthorized := ← readAt readBool values 3
         executable := ← readAt readExecutable values 4
         argv := ← readAt readStrings values 5
         stdin := ← readAt readStdin values 6
         environment := ← readAt readEnvironment values 7
         limits := ← readAt readLimits values 8
         containment := ← readAt readContainment values 9
         attemptMarker := ← readAt readMarker values 10
         evidence := ← readAt readEvidencePath values 11 }

/-! ## Static validation -/

def upperHex (c : Char) : Bool := decide ('0' ≤ c ∧ c ≤ '9') || decide ('A' ≤ c ∧ c ≤ 'F')

/-- What may stand at a place of an upper-case version 4 UUID. -/
def uuidAt (index : Nat) (c : Char) : Bool :=
  if index = 8 ∨ index = 13 ∨ index = 18 ∨ index = 23 then c = '-'
  else if index = 14 then c = '4'
  else if index = 19 then c = '8' || c = '9' || c = 'A' || c = 'B'
  else upperHex c

def isUppercaseUuidV4 (value : String) : Bool :=
  value.toList.length = 36 && (value.toList.zipIdx.all fun p => uuidAt p.2 p.1)

/-- Components of what stands behind the root; empty ones and single dots are not seen. -/
def components (rest : List Char) : List (List Char) :=
  (rest.splitOn '\\').filter fun part => part ≠ [] && part ≠ ['.']

/-- A drive and its root, and what stands behind them. -/
def driveRoot : List Char → Option (Char × List Char)
  | drive :: ':' :: '\\' :: rest => some (drive,rest)
  | _ => none

def rebuilt (drive : Char) (parts : List (List Char)) : List Char :=
  drive :: ':' :: '\\' :: (List.intercalate ['\\'] parts)

/-- Characters that no path may have. -/
def pathChar (c : Char) : Bool := c ≠ '/' && decide (0x1f < c.toNat)

def validateCanonicalWindowsPath (value : String) : Bool :=
  match driveRoot value.toList with
  | none => false
  | some (drive,rest) =>
    decide ('A' ≤ drive ∧ drive ≤ 'Z') && value.toList.all pathChar &&
      !(components rest).contains ['.','.'] && rebuilt drive (components rest) = value.toList

/-- The path without its last component; the root has none. -/
def parent (value : String) : Option String :=
  match driveRoot value.toList with
  | none => none
  | some (drive,rest) =>
    if components rest = [] then none
    else some (String.ofList (rebuilt drive (components rest).dropLast))

def asciiUpper (c : Char) : Char := if 'a' ≤ c ∧ c ≤ 'z' then Char.ofNat (c.toNat - 32) else c

def verbatim : List Char := ['\\','\\','?','\\']

def normalizeWindowsPath (path : String) : List Char :=
  let text := path.toList
  let plain := if verbatim.isPrefixOf text then text.drop 4 else text
  plain.map fun c => if c = '/' then '\\' else c

def windowsPathsEqual (left right : String) : Bool :=
  (normalizeWindowsPath left).map asciiUpper = (normalizeWindowsPath right).map asciiUpper

def validateLimits (limits : LimitBinding) : Bool :=
  limits.requestBytesMax = requestBytesMax && limits.stdinBytesMax = stdinBytesMax &&
    limits.stdoutBytesMax = stdoutBytesMax && limits.stderrBytesMax = stderrBytesMax &&
    limits.evidenceBytesMax = evidenceBytesMax && limits.concurrencyMax = 1 && limits.childProcessMax = 1 &&
    decide (1000 ≤ limits.deadlineMs ∧ limits.deadlineMs ≤ 120000) &&
    limits.aggregateDeadlineMs = aggregateDeadlineMs && limits.memoryBytesMax = memoryBytesMax &&
    limits.cpuPercentMax = cpuPercentMax

def sensitiveWords : List String :=
  ["TOKEN","KEY","SECRET","PASSWORD","PASSWD","SESSION","COOKIE","TELEGRAM","CREDENTIAL","AUTH"]

def isSensitiveEnvironmentName (name : String) : Bool :=
  sensitiveWords.any fun word => (name.toList.map asciiUpper).tails.any fun rest => word.toList.isPrefixOf rest

/-- Text of an argument or of a variable: short, and without line ends. -/
def argumentText (text : String) : Bool :=
  decide (text.utf8ByteSize ≤ 4096) && text.toList.all fun c => c.toNat ≠ 0 && c ≠ '\r' && c ≠ '\n'

def windowsNames : List String := ["SystemRoot","WINDIR"]
def wslExecutable : String := "C:\\Program Files\\WSL\\wsl.exe"
def windowsDirectory : String := "C:\\Windows"
def safeEnvironmentNames : List String := ["LANG","LC_ALL","NO_COLOR","RM0032_FIXTURE_MODE"]

def lookup (name : String) (values : List (String × String)) : Option String :=
  (values.find? fun v => v.1 = name).map Prod.snd

/-- Names in strict order of their bytes. -/
def inOrder : List String → Bool
  | a :: b :: rest => scalarOrder.le a b && a ≠ b && inOrder (b :: rest)
  | _ => true

def validateEnvironment (environment : EnvironmentBinding) (executable : String) : Except String Unit :=
  if environment.inherit then .error "environment-inheritance-refused"
  else if windowsNames.any fun name => environment.allowlist.contains name || (lookup name environment.values).isSome then
    if executable ≠ wslExecutable ∨ environment.allowlist ≠ windowsNames ∨
        environment.values.length ≠ windowsNames.length ∨
        windowsNames.any fun name => lookup name environment.values ≠ some windowsDirectory then
      .error "wsl-environment-binding-refused"
    else .ok ()
  else if !environment.allowlist.all fun name => safeEnvironmentNames.contains name && !isSensitiveEnvironmentName name then
    .error "environment-name-refused"
  else if !inOrder environment.allowlist then .error "environment-order-refused"
  else if !(environment.values.all fun v => environment.allowlist.contains v.1) ||
      !(environment.allowlist.all fun name => (lookup name environment.values).isSome) then
    .error "environment-value-set-refused"
  else if !environment.values.all fun v => argumentText v.2 then .error "environment-value-refused"
  else .ok ()

/-- Marker and evidence lie in the root itself and are files of their own. -/
def pathsContained (request : ProcessRequest) : Bool :=
  let root := request.containment.operationRoot
  ((parent request.attemptMarker.path).any fun p => windowsPathsEqual p root) &&
    ((parent request.evidence.path).any fun p => windowsPathsEqual p root) &&
    !windowsPathsEqual request.attemptMarker.path request.evidence.path &&
    !windowsPathsEqual request.executable.path request.evidence.path

/-- The input that goes with the request, and the environment of the command. -/
def validateInput (host : Host) (request : ProcessRequest) (stdinBytes : Bytes) : Except String Bytes :=
  if stdinBytes.length ≠ request.stdin.bytes ∨ stdinBytesMax < stdinBytes.length ∨
      host.sha256Hex stdinBytes ≠ request.stdin.sha256 then .error "stdin-binding-refused"
  else (validateEnvironment request.environment request.executable.path).map fun _ => stdinBytes

def validateStaticRequest (host : Host) (request : ProcessRequest) : Except String Bytes :=
  if request.schema ≠ processRequestSchema ∨ !request.oneShot ∨ request.retryAuthorized ∨
      !isUppercaseUuidV4 request.operationId then .error "request-identity-refused"
  else if request.containment.consumer ≠ processConsumer ∨ !request.containment.requireCanonicalPaths ∨
      !request.attemptMarker.createNew ∨ !request.evidence.createNew ∨
      request.evidence.schema ≠ processEvidenceSchema then .error "request-policy-refused"
  else if !validateLimits request.limits then .error "limit-binding-refused"
  else if !sha256Text request.executable.sha256 then .error "executable-sha256-format-refused"
  else if !sha256Text request.stdin.sha256 then .error "stdin-sha256-format-refused"
  else if !validateCanonicalWindowsPath request.executable.path then .error "executable-canonical-path-refused"
  else if !validateCanonicalWindowsPath request.containment.operationRoot then
    .error "operation-root-canonical-path-refused"
  else if !validateCanonicalWindowsPath request.attemptMarker.path then
    .error "attempt-marker-canonical-path-refused"
  else if !validateCanonicalWindowsPath request.evidence.path then .error "evidence-canonical-path-refused"
  else if !pathsContained request then .error "path-containment-refused"
  else if request.argv = [] ∨ 64 < request.argv.length then .error "argv-cardinality-refused"
  else if !request.argv.all argumentText then .error "argv-element-refused"
  else if request.stdin.encoding ≠ "base64" then .error "stdin-encoding-refused"
  else
    match Base64.decode request.stdin.base64 with
    | none => .error "stdin-base64-refused"
    | some stdinBytes => validateInput host request stdinBytes

def byteOrderMark : Bytes := [0xef,0xbb,0xbf]

/-- The text of a request as the record that it stands for. -/
def readCanonical (text : String) : Except String ProcessRequest :=
  match parse text with
  | none => .error "request-json-refused"
  | some value =>
    match canonicalJsonBytes value with
    | .error error => .error error
    | .ok canonical =>
      if canonical ≠ text then .error "request-canonical-bytes-refused"
      else
        match readRequest value with
        | none => .error "request-schema-refused"
        | some request => .ok request

/-- Loading up to the checks that look at the file system. -/
def loadRequest (host : Host) (requestBytes : Bytes) : Except String (ProcessRequest × Bytes) :=
  if requestBytes = [] ∨ requestBytesMax < requestBytes.length then .error "request-size-refused"
  else if byteOrderMark.isPrefixOf requestBytes then .error "request-bom-refused"
  else
    match fromUtf8 requestBytes with
    | none => .error "request-utf8-refused"
    | some text =>
      match readCanonical text with
      | .error error => .error error
      | .ok request => (validateStaticRequest host request).map fun stdinBytes => (request,stdinBytes)

end Neurobro.Runner
