import Neurobro.Data.Lines

/-! The reading side of an epoch wire: lines of JSON come in as chunks of bytes and go out
to one waiting read at a time. The writing side counts as faults that may come at any
moment, and so does every timer that runs out. Ghost fields keep what came in and how each
read was settled. -/
namespace Neurobro.Epoch

/-- `JSON.parse` and `JSON.stringify`, and whether a value is a plain object: the wire never looks
into a value. -/
structure Script (Value : Type) where
  parse : String → Option Value
  stringify : Value → String
  isObject : Value → Bool

variable {Value : Type}

/-- A line is an object in its own JSON text. -/
def parseFrame (js : Script Value) (bytes : Bytes) : Option Value := do
  let text ← fromUtf8 bytes
  let value ← js.parse text
  if js.isObject value && js.stringify value = text then some value else none

def frameBytes : Nat := 3145728
def totalBytes : Nat := 536870912
def queueBytes : Nat := 12582912
def queueFrames : Nat := 32

inductive WireCode where
  | closed | eof | partialEof | frame | bounds | read | write | concurrentRead | concurrentWrite | timeoutValue
  deriving DecidableEq

inductive Direction where
  | read | write
  deriving DecidableEq

inductive Fault where
  | error (code : WireCode)
  | timeout (direction : Direction)
  deriving DecidableEq

/-- How a read ends. -/
inductive Settled (Value : Type) where
  | value (v : Value)
  | fault (f : Fault)

structure Wire (Value : Type) where
  terminal : Option Fault := none
  inputEnded : Bool := false
  inputBytes : Nat := 0
  pending : Bytes := []
  queue : List (Value × Nat) := []
  queuedBytes : Nat := 0
  /-- The read that waits. -/
  read : Option Nat := none
  /-- How many reads there were. -/
  issued : Nat := 0
  /-- The reads in the order in which they ended. -/
  settled : List (Nat × Settled Value) := []
  /-- What came in before the wire became terminal. -/
  stream : Bytes := []

def Wire.settle (w : Wire Value) (reads : Option Nat) (result : Settled Value) : Wire Value :=
  { w with settled := w.settled ++ (reads.map fun n => (n,result)).toList }

def Wire.stop (w : Wire Value) (fault : Fault) : Wire Value :=
  if w.terminal.isSome then w
  else
    { w.settle w.read (.fault fault) with
      terminal := some fault, pending := [], queue := [], queuedBytes := 0, read := none }

/-- A frame goes to the read that waits, or to the queue while it has room. -/
def Wire.deliver (w : Wire Value) (value : Value) (bytes : Nat) : Wire Value × Option WireCode :=
  if w.read.isSome then ({ w.settle w.read (.value value) with read := none },none)
  else if queueFrames ≤ w.queue.length ∨ queueBytes < w.queuedBytes + bytes then (w,some .bounds)
  else ({ w with queue := w.queue ++ [(value,bytes)], queuedBytes := w.queuedBytes + bytes },none)

/-- The bytes of a segment before its line feed. -/
def lineBody (segment : Bytes) : Bytes := if segment.getLast? = some newline then segment.dropLast else segment

/-- One turn of the loop over a chunk. -/
def Wire.take (js : Script Value) (w : Wire Value) (segment : Bytes) : Wire Value × Option WireCode :=
  if frameBytes < w.pending.length + (lineBody segment).length then (w,some .bounds)
  else if segment.getLast? ≠ some newline then ({ w with pending := w.pending ++ lineBody segment },none)
  else if w.pending ++ lineBody segment = [] then (w,some .frame)
  else
    match parseFrame js (w.pending ++ lineBody segment) with
    | none => (w,some .frame)
    | some value => { w with pending := [] }.deliver value ((w.pending ++ lineBody segment).length + 1)

def Wire.takeAll (js : Script Value) (w : Wire Value) : List Bytes → Wire Value × Option WireCode
  | [] => (w,none)
  | segment :: rest =>
    match w.take js segment with
    | (w',some code) => (w',some code)
    | (w',none) => w'.takeAll js rest

/-- What a thrown code makes of the wire. -/
def Wire.caught (taken : Wire Value × Option WireCode) : Wire Value :=
  match taken.2 with
  | some code => taken.1.stop (.error code)
  | none => taken.1

def Wire.came (w : Wire Value) (chunk : Bytes) : Wire Value :=
  { w with inputBytes := w.inputBytes + chunk.length, stream := w.stream ++ chunk }

def Wire.onData (js : Script Value) (w : Wire Value) (chunk : Bytes) : Wire Value :=
  if w.terminal.isSome then w
  else if totalBytes < (w.came chunk).inputBytes then (w.came chunk).stop (.error .bounds)
  else Wire.caught ((w.came chunk).takeAll js (segments chunk))

def Wire.onEnd (w : Wire Value) : Wire Value :=
  if w.terminal.isSome then w
  else if w.pending ≠ [] then w.stop (.error .partialEof)
  else { w.settle w.read (.fault (.error .eof)) with inputEnded := true, read := none }

def Wire.onReadClose (w : Wire Value) : Wire Value := if w.inputEnded then w else w.stop (.error .read)

/-- A timeout is a positive number of milliseconds that a timer takes. -/
def timeoutValid (timeoutMs : Int) : Bool := decide (0 < timeoutMs ∧ timeoutMs ≤ 2147483647)

/-- What a read finds: its result at once, or nothing yet. -/
def Wire.receiving (w : Wire Value) (this : Nat) (timeoutMs : Int) : Wire Value :=
  match w.terminal with
  | some fault => w.settle (some this) (.fault fault)
  | none =>
    if timeoutValid timeoutMs = false then w.settle (some this) (.fault (.error .timeoutValue))
    else if w.read.isSome then w.settle (some this) (.fault (.error .concurrentRead))
    else
      match w.queue with
      | next :: rest => { w.settle (some this) (.value next.1) with queue := rest, queuedBytes := w.queuedBytes - next.2 }
      | [] => if w.inputEnded then w.settle (some this) (.fault (.error .eof)) else { w with read := some this }

def Wire.receive (w : Wire Value) (timeoutMs : Int) : Wire Value :=
  Wire.receiving { w with issued := w.issued + 1 } w.issued timeoutMs

/-- The timer of a read runs out. -/
def Wire.readTimeout (w : Wire Value) (n : Nat) : Wire Value :=
  if w.read = some n then { w.settle w.read (.fault (.timeout .read)) with read := none } else w

inductive Event where
  | data (chunk : Bytes)
  /-- Something that is no chunk of bytes. -/
  | foreign
  | end_
  | readError
  | readClose
  /-- What the writing side stops the wire with. -/
  | writeFault (fault : Fault)
  | receive (timeoutMs : Int)
  | timer (n : Nat)
  | close

def Wire.step (js : Script Value) (w : Wire Value) : Event → Wire Value
  | .data chunk => w.onData js chunk
  | .foreign => w.stop (.error .read)
  | .end_ => w.onEnd
  | .readError => w.stop (.error .read)
  | .readClose => w.onReadClose
  | .writeFault fault => w.stop fault
  | .receive timeoutMs => w.receive timeoutMs
  | .timer n => w.readTimeout n
  | .close => w.stop (.error .closed)

def Wire.run (js : Script Value) (w : Wire Value) (events : List Event) : Wire Value := events.foldl (Wire.step js) w

end Neurobro.Epoch
