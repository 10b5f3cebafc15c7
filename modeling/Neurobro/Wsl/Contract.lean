import Neurobro.Data.JsonText
import Neurobro.Data.Lines
import Neurobro.Data.Results
import Mathlib.Data.List.Sort

/-! The frames between the host and what runs behind the pipe: one line of canonical
JSON with a keyed digest over it. Digests are functions of their texts. -/
namespace Neurobro.Wsl

open JsonText

inductive Code where
  | invalidRequest | jsonBudget | invalidSession | invalidLimits | bodyBudget | frameBudget | invalidFrame | noncanonicalFrame
  | wrongSession | authenticationFailed | framerClosed | emptyFrame | truncatedFrame | pathRefused | snapshotRefused
  | snapshotNotAccepted | snapshotBudget | snapshotFileKind | snapshotIntegrity | notFound | chatRefused | ownerOutcomeUnknown
  | responseBudget | proposalRefused | duplicateProposal | methodRefused | sessionUnavailable | clockRefused
  | replayOrSequenceGap | deadlineRefused | sessionBudget | killSwitch | deadlineUnknown
  deriving DecidableEq

def Code.text : Code → String
  | .invalidRequest => "invalid-request"
  | .jsonBudget => "json-budget"
  | .invalidSession => "invalid-session"
  | .invalidLimits => "invalid-limits"
  | .bodyBudget => "body-budget"
  | .frameBudget => "frame-budget"
  | .invalidFrame => "invalid-frame"
  | .noncanonicalFrame => "noncanonical-frame"
  | .wrongSession => "wrong-session"
  | .authenticationFailed => "authentication-failed"
  | .framerClosed => "framer-closed"
  | .emptyFrame => "empty-frame"
  | .truncatedFrame => "truncated-frame"
  | .pathRefused => "path-refused"
  | .snapshotRefused => "snapshot-refused"
  | .snapshotNotAccepted => "snapshot-not-accepted"
  | .snapshotBudget => "snapshot-budget"
  | .snapshotFileKind => "snapshot-file-kind"
  | .snapshotIntegrity => "snapshot-integrity"
  | .notFound => "not-found"
  | .chatRefused => "chat-refused"
  | .ownerOutcomeUnknown => "owner-outcome-unknown"
  | .responseBudget => "response-budget"
  | .proposalRefused => "proposal-refused"
  | .duplicateProposal => "duplicate-proposal"
  | .methodRefused => "method-refused"
  | .sessionUnavailable => "session-unavailable"
  | .clockRefused => "clock-refused"
  | .replayOrSequenceGap => "replay-or-sequence-gap"
  | .deadlineRefused => "deadline-refused"
  | .sessionBudget => "session-budget"
  | .killSwitch => "kill-switch"
  | .deadlineUnknown => "deadline-unknown"

def requireBroker (ok : Bool) (code : Code) : Except Code Unit := if ok then .ok () else .error code

@[simp] theorem requireBroker_ok (ok : Bool) (code : Code) (u : Unit) : requireBroker ok code = .ok u ↔ ok = true := by
  cases ok <;> simp [requireBroker]

theorem requireBroker_yes (holds : ok = true) : requireBroker ok code = .ok () := by
  simp [holds]

theorem requireBroker_no (fails : ok = false) : requireBroker ok code = .error code := by
  simp [requireBroker,fails]

/-! ## Limits and sessions -/

structure Limits where
  maxFrameBytes : Nat
  maxBodyBytes : Nat
  maxCalls : Nat
  maxSessionBytes : Nat
  maxItems : Nat
  maxTextBytes : Nat
  maxDeadlineMs : Nat
  deriving DecidableEq

def defaultLimits : Limits := ⟨32768,24000,32,262144,64,16384,5000⟩

/-- Every limit is positive and within its default. -/
def Limits.valid (l : Limits) : Bool :=
  let within (value most : Nat) := decide (0 < value ∧ value ≤ most)
  within l.maxFrameBytes 32768 && within l.maxBodyBytes 24000 && within l.maxCalls 32 && within l.maxSessionBytes 262144 &&
    within l.maxItems 64 && within l.maxTextBytes 16384 && within l.maxDeadlineMs 5000

structure Session where
  key : Bytes
  keyId : String
  sessionId : String
  limits : Limits

def wordChar (c : Char) : Bool := c.isAlphanum || c = '_' || c = '-'

def lowerHex (c : Char) : Bool := c.isDigit || decide ('a' ≤ c ∧ c ≤ 'f')

/-- A text of so many lower-case hexadecimal digits. -/
def hexText (length : Nat) (s : String) : Bool := s.toList.length = length && s.toList.all lowerHex

def keyIdText (s : String) : Bool := decide (0 < s.toList.length ∧ s.toList.length ≤ 48) && s.toList.all wordChar

def sessionOptions (input : Session) : Except Code Session := do
  requireBroker (decide (32 ≤ input.key.length ∧ input.key.length ≤ 64)) .invalidSession
  requireBroker (keyIdText input.keyId && hexText 32 input.sessionId) .invalidSession
  requireBroker input.limits.valid .invalidLimits
  .ok input

/-! ## Canonical text -/

/-- Control characters other than tab, line feed and carriage return. -/
def forbidden (c : Char) : Bool :=
  decide (c.toNat ≤ 8) || c.toNat = 11 || c.toNat = 12 || decide (14 ≤ c.toNat ∧ c.toNat ≤ 31) || c.toNat = 127

def boundedText (s : String) (maxBytes : Nat) : Bool :=
  decide (s.utf8ByteSize ≤ maxBytes) && s.toList.all fun c => !forbidden c

def reserved (key : String) : Bool := key = "__proto__" || key = "constructor" || key = "prototype"

def fieldKey (key : String) : Bool := boundedText key 128 && !reserved key

mutual
/-- Keys in the order of their code units at every level. -/
def ordered : Json → Json
  | .arr items => .arr (orderedItems items)
  | .obj fields => .obj ((orderedFields fields).insertionSort fun a b => unitsLe (utf16Units a.1) (utf16Units b.1))
  | value => value

def orderedItems : List Json → List Json
  | [] => []
  | item :: rest => ordered item :: orderedItems rest

def orderedFields : List (String × Json) → List (String × Json)
  | [] => []
  | (key,value) :: rest => (key,ordered value) :: orderedFields rest
end

/-- One more value, at a depth. -/
def charge (depth n : Nat) : Except Code Nat :=
  if depth ≤ 12 ∧ n + 1 ≤ 4096 then .ok (n + 1) else .error .jsonBudget

mutual
/-- The text of a value whose keys are in order, and how many values were counted. -/
def canonicalValue : Json → Nat → Nat → Except Code (String × Nat)
  | .null,depth,n => do
    let n ← charge depth n
    .ok ("null",n)
  | .bool b,depth,n => do
    let n ← charge depth n
    .ok (if b then "true" else "false",n)
  | .num q,depth,n => do
    let n ← charge depth n
    requireBroker (safe q) .invalidRequest
    .ok (Json.numberJson decimal q,n)
  | .str s,depth,n => do
    let n ← charge depth n
    requireBroker (boundedText s defaultLimits.maxFrameBytes) .invalidRequest
    .ok (quote s,n)
  | .arr items,depth,n => do
    let n ← charge depth n
    let (texts,n) ← canonicalItems items (depth + 1) n
    .ok ("[" ++ joined "," texts ++ "]",n)
  | .obj fields,depth,n => do
    let n ← charge depth n
    let (texts,n) ← canonicalFields fields (depth + 1) n
    .ok ("\x7b" ++ joined "," texts ++ "\x7d",n)

def canonicalItems : List Json → Nat → Nat → Except Code (List String × Nat)
  | [],_,n => .ok ([],n)
  | item :: rest,depth,n => do
    let (text,n) ← canonicalValue item depth n
    let (texts,n) ← canonicalItems rest depth n
    .ok (text :: texts,n)

def canonicalFields : List (String × Json) → Nat → Nat → Except Code (List String × Nat)
  | [],_,n => .ok ([],n)
  | (key,value) :: rest,depth,n => do
    requireBroker (fieldKey key) .invalidRequest
    let (text,n) ← canonicalValue value depth n
    let (texts,n) ← canonicalFields rest depth n
    .ok ((quote key ++ ":" ++ text) :: texts,n)
end

def canonicalJson (value : Json) : Except Code String := (canonicalValue (ordered value) 0 0).map Prod.fst

/-! ## Frames -/

/-- The keyed digest and the plain one, as hexadecimal texts. -/
structure Crypto where
  hmac : Bytes → String → String
  sha256 : String → String

inductive Kind where
  | request | response
  deriving DecidableEq

def Kind.text : Kind → String
  | .request => "request"
  | .response => "response"

structure FrameCore where
  kind : Kind
  keyId : String
  sessionId : String
  id : String
  sequence : Int
  deadlineMs : Int
  body : Json

structure BrokerFrame extends FrameCore where
  mac : String

def int (n : Int) : Json := .num (.finite n)

def FrameCore.fields (core : FrameCore) : List (String × Json) :=
  [("version",int 1),("kind",.str core.kind.text),("keyId",.str core.keyId),("sessionId",.str core.sessionId),
    ("id",.str core.id),("sequence",int core.sequence),("deadlineMs",int core.deadlineMs),("body",core.body)]

def macLabel : String := "decadans-wsl-broker/v1\n"

def mac (crypto : Crypto) (core : Json) (key : Bytes) : Except Code String :=
  (canonicalJson core).map fun text => crypto.hmac key (macLabel ++ text)

def encodeFrame (crypto : Crypto) (core : FrameCore) (session : Session) : Except Code Bytes := do
  let options ← sessionOptions session
  let body ← canonicalJson core.body
  requireBroker (decide (body.utf8ByteSize ≤ options.limits.maxBodyBytes)) .bodyBudget
  let mac ← mac crypto (.obj core.fields) options.key
  let text ← canonicalJson (.obj (core.fields ++ [("mac",.str mac)]))
  let frame := utf8 (text ++ "\n")
  requireBroker (decide (frame.length ≤ options.limits.maxFrameBytes)) .frameBudget
  .ok frame

/-- The same keys, in whatever order. -/
def exactKeys (value : Json) (keys : List String) : Bool :=
  match value with
  | .obj fields =>
    let sorted (keys : List String) := keys.insertionSort fun a b => unitsLe (utf16Units a) (utf16Units b)
    sorted (fields.map Prod.fst) = sorted keys
  | _ => false

def frameKeys : List String := ["version","kind","keyId","sessionId","id","sequence","deadlineMs","body","mac"]

/-- A safe integer. -/
def int? : Option Json → Option Int
  | some (.num (.finite q)) => if safe (.finite q) then some q.num else none
  | some (.num .negativeZero) => some 0
  | _ => none

def text? : Option Json → Option String
  | some (.str s) => some s
  | _ => none

/-- The value of an optional reading, or a refusal. -/
def requireSome {α : Type} (value : Option α) (code : Code) : Except Code α :=
  match value with
  | some a => .ok a
  | none => .error code

def decodeFrame (crypto : Crypto) (bytes : Bytes) (session : Session) (kind : Kind) : Except Code BrokerFrame := do
  let options ← sessionOptions session
  requireBroker (decide (1 < bytes.length ∧ bytes.length ≤ options.limits.maxFrameBytes)) .frameBudget
  let text ← requireSome (fromUtf8 bytes) .invalidFrame
  let value ← requireSome (parse text) .invalidFrame
  let canonical ← canonicalJson value
  requireBroker (text = canonical ++ "\n") .noncanonicalFrame
  requireBroker (exactKeys value frameKeys) .invalidRequest
  requireBroker (int? (value.field? "version") = some 1 && text? (value.field? "kind") = some kind.text &&
    text? (value.field? "keyId") = some options.keyId && text? (value.field? "sessionId") = some options.sessionId) .wrongSession
  let id ← requireSome (text? (value.field? "id")) .invalidRequest
  requireBroker (hexText 32 id) .invalidRequest
  let sequence ← requireSome (int? (value.field? "sequence")) .invalidRequest
  let deadlineMs ← requireSome (int? (value.field? "deadlineMs")) .invalidRequest
  requireBroker (decide (0 < sequence)) .invalidRequest
  let actual ← requireSome (text? (value.field? "mac")) .authenticationFailed
  requireBroker (hexText 64 actual) .authenticationFailed
  let expected ← mac crypto (value.without "mac") options.key
  requireBroker (actual = expected) .authenticationFailed
  let body ← requireSome (value.field? "body") .invalidRequest
  let size ← canonicalJson body
  requireBroker (decide (size.utf8ByteSize ≤ options.limits.maxBodyBytes)) .bodyBudget
  .ok ⟨⟨kind,options.keyId,options.sessionId,id,sequence,deadlineMs,body⟩,actual⟩

end Neurobro.Wsl
