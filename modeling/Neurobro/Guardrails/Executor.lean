import Neurobro.Coop.Process

/-! The executor that stands before every request: it reads the shared state, refuses what is over
the limits, waits until the last request is long enough ago, stamps the request and issues it. -/
namespace Neurobro.Guardrails

open Coop

/-- The instant a text names in milliseconds, unless it is no date. -/
abbrev Stamp := Option Int

structure CircuitBreaker where
  consecutiveTransientFailures : Int := 0
  openUntil : Option Stamp := none
  deriving DecidableEq

structure PersistentState where
  requestTimestamps : List Stamp := []
  lastRequestAt : Option Stamp := none
  cooldownUntil : Option Stamp := none
  circuitBreaker : CircuitBreaker := {}
  deriving DecidableEq

structure LimitConfig where
  maxRequestsPerMinute : Nat
  maxRequestsPerHour : Nat
  maxRequestsPerRollingDay : Nat
  minRequestIntervalMs : Nat
  maxTransientRetries : Nat
  retryBaseMs : Nat
  retryMaxMs : Nat
  floodWaitSafetySeconds : Nat
  circuitBreakerFailures : Nat
  circuitBreakerCooldownSeconds : Nat
  deriving DecidableEq

/-- An error that stops, or one of the kinds a failure is put under. -/
inductive Err where
  | stop (code : String) (retryAt : Option Int)
  | flood (seconds : Option Nat)
  | transient
  | fatal
  | nonRetryable
  deriving DecidableEq

/-- A loaded state is an object that calls hold on to; the store keeps the one loaded last. The
stamps and issues of the whole run are recorded along with it, each issue with the number of its
stamp. -/
structure State where
  objects : List PersistentState := []
  kept : Option Nat := none
  now : Int
  random : Rat := 0
  stamps : List Int := []
  issued : List (Nat × Int) := []

def State.object (s : State) (i : Nat) : PersistentState := s.objects.getD i {}

def State.modify (s : State) (i : Nat) (f : PersistentState → PersistentState) : State :=
  { s with objects := s.objects.modify i f }

/-- What a call saw of the state when it was let through. -/
structure Seen where
  object : Nat
  timestamps : List Stamp
  last : Option Stamp
  at_ : Int
  deriving DecidableEq

section Limits
variable (limits : LimitConfig)

def dayMs : Int := 24 * 60 * 60 * 1000

/-- The timestamps of the last day. -/
def Seen.parsed (seen : Seen) : List Int := seen.timestamps.filterMap id |>.filter fun t => decide (seen.at_ - dayMs < t)

def windows : List (Int × Nat) :=
  [(60000,limits.maxRequestsPerMinute),(3600000,limits.maxRequestsPerHour),(dayMs,limits.maxRequestsPerRollingDay)]

def Seen.inWindow (seen : Seen) (windowMs : Int) : List Int := seen.parsed.filter fun t => decide (seen.at_ - windowMs < t)

def newestRetryAt (timestamps : List Int) (windowMs : Int) : Option Int := timestamps.min?.map (· + windowMs + 1)

def active (until_ : Option Stamp) (now : Int) : Option Int := until_.join.filter fun t => decide (now < t)

/-- How long it has to wait until the last request is long enough ago. -/
def Seen.waitMs (seen : Seen) : Int := (seen.last.join.map fun last => last + limits.minRequestIntervalMs - seen.at_).getD 0

/-- The check of one call, all of it at one instant. -/
def admission (object : Nat) (s : State) : Except Err Seen :=
  let state := s.object object
  let seen : Seen := ⟨object,state.requestTimestamps,state.lastRequestAt,s.now⟩
  match active state.cooldownUntil s.now,active state.circuitBreaker.openUntil s.now with
  | some retryAt,_ => .error (.stop "COOLDOWN_ACTIVE" (some retryAt))
  | none,some retryAt => .error (.stop "CIRCUIT_OPEN" (some retryAt))
  | none,none =>
    match (windows limits).find? fun w => decide (w.2 ≤ (seen.inWindow w.1).length) with
    | some w => .error (.stop "REQUEST_BUDGET_EXHAUSTED" (newestRetryAt (seen.inWindow w.1) w.1))
    | none => .ok seen

/-- What is done at once, between two awaits. -/
inductive Cmd where
  | adopt (content : PersistentState)
  | wake (until_ : Int)
  | stamp (seen : Seen)
  | issue (ticket : Nat)
  | succeed (object : Nat)
  | flood (object : Nat) (seconds : Nat)
  | fail (object : Nat)

abbrev Cmd.Result : Cmd → Type
  | .adopt _ => Nat
  | .wake _ => Unit
  | .stamp _ => Nat
  | .issue _ => Unit
  | .succeed _ => Bool
  | .flood _ _ => Int
  | .fail _ => Option Int

def failed (s : State) (b : CircuitBreaker) : CircuitBreaker × Option Int :=
  let failures := b.consecutiveTransientFailures + 1
  if (limits.circuitBreakerFailures : Int) ≤ failures then
    let retryAt := s.now + limits.circuitBreakerCooldownSeconds * 1000
    (⟨failures,some (some retryAt)⟩,some retryAt)
  else ({ b with consecutiveTransientFailures := failures },none)

def exec : (cmd : Cmd) → State → cmd.Result × State
  | .adopt content,s => (s.objects.length,{ s with objects := s.objects ++ [content], kept := some s.objects.length })
  | .wake until_,s => ((),{ s with now := max s.now until_ })
  | .stamp seen,s =>
    (s.stamps.length,{ s.modify seen.object fun p => { p with
      requestTimestamps := seen.parsed.map some ++ [some s.now]
      lastRequestAt := some (some s.now) } with stamps := s.stamps ++ [s.now] })
  | .issue ticket,s => ((),{ s with issued := s.issued ++ [(ticket,s.now)] })
  | .succeed object,s =>
    let b := (s.object object).circuitBreaker
    if b.consecutiveTransientFailures ≠ 0 ∨ b.openUntil.isSome = true then
      (true,s.modify object fun p => { p with circuitBreaker := {} })
    else (false,s)
  | .flood object seconds,s =>
    let retryAt := s.now + (seconds + limits.floodWaitSafetySeconds) * 1000
    (retryAt,s.modify object fun p => { p with cooldownUntil := some (some retryAt) })
  | .fail object,s =>
    let (b,opened) := failed limits s (s.object object).circuitBreaker
    (opened,s.modify object fun p => { p with circuitBreaker := b })

/-- What is awaited from outside. -/
inductive Call where
  | readFile
  | writeFile (content : PersistentState)
  | sleep (ms : Int)
  | operation
  deriving DecidableEq

abbrev Call.Reply : Call → Type
  | .readFile => Except Err PersistentState
  | .writeFile _ => Except Err Unit
  | .sleep _ => Unit
  | .operation => Except Err Unit

/-- Time passes, or the random numbers go on. -/
inductive Shock where
  | tick (ms : Nat)
  | random (value : Rat)

def shock : Shock → State → State
  | .tick ms,s => { s with now := s.now + ms }
  | .random value,s => { s with random := value }

/-- The objects go with the process. -/
def restart (s : State) : State := { s with objects := [], kept := none }

def executor : Signature where
  State := State
  Err := Err
  Cmd := Cmd
  Result := Cmd.Result
  exec := exec limits
  Call := Call
  Reply := Call.Reply
  Shock := Shock
  shock := shock
  restart := restart

abbrev Guarded := Async (executor limits)

abbrev commit (cmd : Cmd) : Guarded limits cmd.Result := Async.act (S := executor limits) cmd

abbrev ask (q : Call) : Guarded limits q.Reply := Async.call (S := executor limits) q

abbrev view (f : State → α) : Guarded limits α := Async.look (S := executor limits) f

def load : Guarded limits Nat := do
  match ← view limits State.kept with
  | some object => return object
  | none => do
    let content ← ask limits .readFile
    let content ← Async.lift content
    commit limits (.adopt content)

def save : Guarded limits Unit := do
  let object ← Async.await (load limits)
  let content ← view limits fun s => s.object object
  let written ← ask limits (.writeFile content)
  Async.lift written

/-- When a sleep is over the clock has come to its end. -/
def sleep (ms : Int) : Guarded limits Unit := do
  let now ← view limits State.now
  ask limits (.sleep ms)
  commit limits (.wake (now + ms))

def sleepWhile (ms : Int) : Guarded limits Unit := if 0 < ms then sleep limits ms else pure ()

def beforeRequest : Guarded limits Nat := do
  let object ← Async.await (load limits)
  let seen ← Async.check (S := executor limits) (admission limits object)
  sleepWhile limits (seen.waitMs limits)
  let ticket ← commit limits (.stamp seen)
  Async.await (save limits)
  return ticket

/-- The operation, and what its success clears. -/
def attempted : Guarded limits Unit := do
  let result ← ask limits .operation
  Async.lift result
  let object ← Async.await (load limits)
  let changed ← commit limits (.succeed object)
  if changed = true then Async.await (save limits) else pure ()

def backoff (attempt : Nat) (random : Rat) : Int :=
  max 1 (random * ((min limits.retryMaxMs (limits.retryBaseMs * Nat.pow 2 attempt) : Nat) : Rat)).floor

def stopWith (code : String) (retryAt : Option Int) : Guarded limits Unit := Async.lift (.error (.stop code retryAt))

/-- A failure goes its way; only a transient one lets the request be tried again. -/
def recover (again : Guarded limits Unit) (e : Err) : Guarded limits Unit := do
  let object ← Async.await (load limits)
  match e with
  | .stop code retryAt => stopWith limits code retryAt
  | .flood seconds => do
    let retryAt ← commit limits (.flood object (seconds.getD 3600))
    Async.await (save limits)
    stopWith limits "FLOOD_WAIT" (some retryAt)
  | .fatal => stopWith limits "TELEGRAM_FATAL" none
  | .nonRetryable => stopWith limits "TELEGRAM_NON_RETRYABLE" none
  | .transient => do
    let opened ← commit limits (.fail object)
    Async.await (save limits)
    match opened with
    | some retryAt => stopWith limits "CIRCUIT_OPENED" (some retryAt)
    | none => again

/-- After the last attempt there is no other. -/
def retry (attempt left : Nat) (next : Guarded limits Unit) : Guarded limits Unit :=
  if left = 0 then stopWith limits "TRANSIENT_RETRY_LIMIT" none
  else do
    let random ← view limits State.random
    sleep limits (backoff limits attempt random)
    next

/-- One attempt, with so many left after it. -/
def attempt (left : Nat) (next : Guarded limits Unit) : Guarded limits Unit := do
  let ticket ← Async.await (beforeRequest limits)
  commit limits (.issue ticket)
  match ← Async.settle (attempted limits) with
  | .ok _ => pure ()
  | .error (.stop code retryAt) => stopWith limits code retryAt
  | .error e => recover limits (retry limits (limits.maxTransientRetries - left) left next) e

def attempts : Nat → Guarded limits Unit
  | 0 => attempt limits 0 (pure ())
  | left + 1 => attempt limits (left + 1) (attempts left)

def execute : Guarded limits Unit := attempts limits limits.maxTransientRetries

inductive Op where
  | execute

def body : Op → Proc (executor limits)
  | .execute => execute limits .done

end Limits

end Neurobro.Guardrails
