import Neurobro.Epoch.Envelopes
import Mathlib.Logic.Function.Basic

/-! Many workers on one wire: one reader takes the frames off the wire below and hands each to its
worker, and what the workers send goes out one write after another. Each event is one piece of code
that runs without a break; promises go on by events of their own, so they may come at any moment. -/
namespace Neurobro.Epoch

def slotFrames : Nat := 64

structure Slot where
  queue : List (Json × Nat) := []
  /-- The read that waits. -/
  waiting : Option Nat := none

inductive MuxSettled where
  | value (frame : Json)
  | fault (f : MuxFault)

/-- The loop over the wire below: not begun, at its read `n`, or over. -/
inductive Pump where
  | idle
  | reading (n : Nat)
  | over_
  deriving DecidableEq

/-- A member of the chain of writes; no worker stands for the close of the pool. -/
structure Operation where
  number : Nat
  worker : Option String
  envelope : Json
  expired : Bool := false
  dispatched : Bool := false

/-- What was given to the wire below, and what came of it. -/
structure Write where
  number : Nat
  envelope : Json
  result : Option Bool := none

structure Mux where
  workers : Workers
  wire : Wire Json := {}
  slots : Channel → Slot := fun _ => {}
  bytes : Nat := 0
  terminal : Option MuxFault := none
  peerClosed : Bool := false
  pump : Pump := .idle
  /-- The workers with a send under way. -/
  writing : List String := []
  /-- The chain of writes. -/
  ops : List Operation := []
  closing : Bool := false
  /-- How many reads and writes there were. -/
  issued : Nat := 0
  calls : Nat := 0
  /-- What the loop took off the wire. -/
  taken : List Json := []
  settled : List (Nat × Channel × MuxSettled) := []
  written : List Write := []
  /-- What the callers of writes were told: `none` where all went well. -/
  reports : List (Nat × Option MuxFault) := []

def Mux.waiters (m : Mux) (fault : MuxFault) : List (Nat × Channel × MuxSettled) :=
  m.workers.channels.filterMap fun c => (m.slots c).waiting.map fun n => (n,c,.fault fault)

def Mux.stop (m : Mux) (fault : MuxFault) : Mux :=
  { m with
    terminal := some (m.terminal.getD fault)
    settled := m.settled ++ m.waiters (m.terminal.getD fault)
    slots := fun _ => {}
    bytes := 0 }

/-! Reading. -/

/-- The loop asks the wire for a frame, while nothing stopped it. -/
def Mux.loop (m : Mux) : Mux :=
  if m.terminal.isSome then { m with pump := .over_ }
  else { m with pump := .reading m.wire.issued, wire := m.wire.receive 1000 }

def Mux.start (m : Mux) : Mux := if m.pump = .idle then m.loop else m

def Mux.settle (m : Mux) (n : Nat) (c : Channel) (result : MuxSettled) : Mux :=
  { m with settled := m.settled ++ [(n,c,result)] }

/-- A frame goes to the read that waits for it, or to its queue while there is room. -/
def Mux.place (m : Mux) (c : Channel) (frame : Json) (size : Nat) : Mux × Option MuxCode :=
  match (m.slots c).waiting with
  | some n => ({ m.settle n c (.value frame) with slots := Function.update m.slots c { m.slots c with waiting := none } },none)
  | none =>
    if queueBytes < m.bytes + size ∨ slotFrames ≤ (m.slots c).queue.length then (m,some .bounds)
    else
      ({ m with
        slots := Function.update m.slots c { m.slots c with queue := (m.slots c).queue ++ [(frame,size)] }
        bytes := m.bytes + size },none)

/-- The peer closed the pool: whoever waits is told so, and the loop ends. -/
def Mux.shut (m : Mux) : Mux :=
  { m with
    peerClosed := true
    settled := m.settled ++ m.waiters (.pool .closed)
    slots := fun c => { m.slots c with waiting := none }
    pump := .over_ }

def Mux.fails (m : Mux) (code : MuxCode) : Mux := { m.stop (.pool code) with pump := .over_ }

/-- One turn of the loop with what the wire gave it. -/
def Mux.take (js : Script Json) (m : Mux) (raw : Json) : Mux :=
  match route js m.workers raw with
  | .error code => Mux.fails { m with taken := m.taken ++ [raw] } code
  | .ok (c,frame,size) =>
    match Mux.place { m with taken := m.taken ++ [raw] } c frame size with
    | (m',some code) => m'.fails code
    | (m',none) => if c = .control then m'.shut else m'.loop

/-- The loop goes on after its read ended. -/
def Mux.resume (js : Script Json) (m : Mux) : Mux :=
  match m.pump with
  | .reading n =>
    match m.wire.settled.find? fun p => p.1 = n with
    | none => m
    | some (_,.fault fault) => if fault = .timeout .read then m.loop else m.fails .transport
    | some (_,.value raw) => if m.terminal.isSome then { m with pump := .over_ } else m.take js raw
  | _ => m

/-- What a read of a worker finds. -/
def Mux.receiving (m : Mux) (n : Nat) (c : Channel) (timeoutMs : Int) : Mux :=
  if timeoutValid timeoutMs = false then m.settle n c (.fault (.pool .input))
  else
    match m.terminal with
    | some fault => m.settle n c (.fault fault)
    | none =>
      if (m.slots c).waiting.isSome then m.settle n c (.fault (.pool .busy))
      else
        match (m.slots c).queue with
        | saved :: rest =>
          { m.settle n c (.value saved.1) with
            slots := Function.update m.slots c { m.slots c with queue := rest }
            bytes := m.bytes - saved.2 }
        | [] =>
          if m.peerClosed then m.settle n c (.fault (.pool .closed))
          else Mux.start { m with slots := Function.update m.slots c { m.slots c with waiting := some n } }

def Mux.receive (m : Mux) (c : Channel) (timeoutMs : Int) : Mux :=
  if c ∈ m.workers.channels then Mux.receiving { m with issued := m.issued + 1 } m.issued c timeoutMs else m

/-- The timer of a read runs out. -/
def Mux.readTimer (m : Mux) (c : Channel) (n : Nat) : Mux :=
  if (m.slots c).waiting = some n then
    { m.settle n c (.fault (.wire (.timeout .read))) with
      slots := Function.update m.slots c { m.slots c with waiting := none } }
  else m

/-! Writing. -/

/-- A caller hears of its write once. -/
def Mux.report (m : Mux) (n : Nat) (result : Option MuxFault) : Mux :=
  if n ∈ m.reports.map Prod.fst then m else { m with reports := m.reports ++ [(n,result)] }

def Mux.enqueue (m : Mux) (worker : Option String) (envelope : Json) : Mux :=
  { m with
    ops := m.ops ++ [{ number := m.calls, worker := worker, envelope := envelope }]
    writing := worker.toList ++ m.writing
    calls := m.calls + 1 }

/-- A call that ends before anything is written. -/
def Mux.answer (m : Mux) (result : Option MuxFault) : Mux := { m.report m.calls result with calls := m.calls + 1 }

def Mux.send (js : Script Json) (decoded : String → Option Nat) (m : Mux) (worker : String) (value : Json) (bound : Bound)
    (timeoutMs : Int) : Mux :=
  if worker ∉ m.workers.ids then m
  else if timeoutValid timeoutMs = false then m.answer (some (.pool .input))
  else
    match m.terminal with
    | some fault => m.answer (some fault)
    | none =>
      if m.peerClosed ∨ m.closing then m.answer (some (.pool .closed))
      else if worker ∈ m.writing then m.answer (some (.pool .busy))
      else
        match envelopeOf js decoded worker value bound with
        | .error fault => m.answer (some fault)
        | .ok envelope => m.enqueue (some worker) envelope

def closeEnvelope : Json := .obj [("kind",.str "close")]

def Mux.requestPoolClose (m : Mux) (timeoutMs : Int) : Mux :=
  if timeoutValid timeoutMs = false then m.answer (some (.pool .input))
  -- Who asks again waits for the same close.
  else if m.closing then m
  else
    match m.terminal with
    | some fault => m.answer (some fault)
    | none => if m.peerClosed then m.answer none else { m.enqueue none closeEnvelope with closing := true }

def Mux.expire (m : Mux) (n : Nat) : Mux :=
  { m with ops := m.ops.map fun o : Operation => if o.number = n then { o with expired := true } else o }

/-- The timer of a write runs out before its caller heard of it. -/
def Mux.writeTimer (m : Mux) (n : Nat) : Mux :=
  match m.ops.find? fun op => op.number = n with
  | none => m
  | some op =>
    if n ∈ m.reports.map Prod.fst then m
    else if op.worker.isNone then (m.stop writeTimeout).report n (some writeTimeout)
    else if op.dispatched then ((m.expire n).stop (.pool .transport)).report n (some writeTimeout)
    else (m.expire n).report n (some writeTimeout)

/-- A member leaves the chain. -/
def Mux.leave (m : Mux) (op : Operation) (rest : List Operation) : Mux :=
  { m with ops := rest, writing := m.writing.filter fun w => op.worker ≠ some w }

def Mux.dispatch (m : Mux) (op : Operation) (rest : List Operation) : Mux :=
  { m with
    ops := { op with dispatched := true } :: rest
    written := m.written ++ [{ number := op.number, envelope := op.envelope }] }

def Mux.startSend (m : Mux) (op : Operation) (rest : List Operation) (late : Bool) : Mux :=
  if op.expired then m.leave op rest
  else
    match m.terminal with
    | some fault => (m.leave op rest).report op.number (some fault)
    | none =>
      if m.peerClosed then (m.leave op rest).report op.number (some (.pool .closed))
      else if late then (m.leave op rest).report op.number (some writeTimeout)
      else m.dispatch op rest

/-- A close that fails takes the wire with it, whether or not it was written. -/
def Mux.startClose (m : Mux) (op : Operation) (rest : List Operation) (late : Bool) : Mux :=
  match m.terminal with
  | some fault => ((m.leave op rest).stop (.pool .transport)).report op.number (some fault)
  | none =>
    if m.peerClosed then (m.leave op rest).report op.number none
    else if late then ((m.leave op rest).stop (.pool .transport)).report op.number (some writeTimeout)
    else m.dispatch op rest

/-- The chain comes to its next member; `late` where its time is over by the clock. -/
def Mux.advance (m : Mux) (late : Bool) : Mux :=
  match m.ops with
  | [] => m
  | op :: rest =>
    if op.dispatched then m
    else if op.worker.isSome then m.startSend op rest late
    else m.startClose op rest late

def Mux.mark (m : Mux) (well : Bool) : Mux :=
  { m with written := m.written.map fun w : Write => if w.result.isNone then { w with result := some well } else w }

/-- The wire below is done with what it was given. -/
def Mux.wrote (m : Mux) (result : Option MuxFault) : Mux :=
  match m.ops with
  | [] => m
  | op :: rest =>
    if op.dispatched then
      match result with
      | none => Mux.report ((m.mark true).leave op rest) op.number none
      | some fault => Mux.report (((m.mark false).leave op rest).stop (.pool .transport)) op.number (some fault)
    else m

inductive MuxEvent where
  /-- Something happens to the wire below; only the loop reads it. -/
  | wire (event : Event)
  | resume
  | receive (c : Channel) (timeoutMs : Int)
  | readTimer (c : Channel) (n : Nat)
  | send (worker : String) (value : Json) (bound : Bound) (timeoutMs : Int)
  | requestPoolClose (timeoutMs : Int)
  | writeTimer (n : Nat)
  | advance (late : Bool)
  | wrote (result : Option MuxFault)
  | abort
  | close

/-- An event of the wire below that is no read. -/
def Event.outer : Event → Bool
  | .receive _ => false
  | _ => true

def Mux.step (js : Script Json) (decoded : String → Option Nat) (m : Mux) : MuxEvent → Mux
  | .wire event => if event.outer then { m with wire := m.wire.step js event } else m
  | .resume => m.resume js
  | .receive c timeoutMs => m.receive c timeoutMs
  | .readTimer c n => m.readTimer c n
  | .send worker value bound timeoutMs => m.send js decoded worker value bound timeoutMs
  | .requestPoolClose timeoutMs => m.requestPoolClose timeoutMs
  | .writeTimer n => m.writeTimer n
  | .advance late => m.advance late
  | .wrote result => m.wrote result
  | .abort => m.stop (.pool .closed)
  | .close => m.stop (.pool .closed)

def Mux.run (js : Script Json) (decoded : String → Option Nat) (m : Mux) (events : List MuxEvent) : Mux :=
  events.foldl (Mux.step js decoded) m

def createStandingMultiplexEpochWire (workers : Workers) (aborted : Bool) : Mux :=
  if aborted then Mux.stop { workers := workers } (.pool .closed) else { workers := workers }

end Neurobro.Epoch
