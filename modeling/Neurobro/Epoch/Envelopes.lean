import Neurobro.Epoch.Wire
import Neurobro.Data.JsonSize
import Neurobro.Api.Text

/-! The envelopes of a wire that many workers share: whose frame one holds, and which frames may go out. -/
namespace Neurobro.Epoch

inductive MuxCode where
  | input | closed | protocol | bounds | busy | transport
  deriving DecidableEq

inductive MuxFault where
  | pool (code : MuxCode)
  | wire (fault : Fault)
  /-- What a callback of the host threw. -/
  | thrown
  deriving DecidableEq

def writeTimeout : MuxFault := .wire (.timeout .write)

def idChar (c : Char) : Bool := c.isAlphanum || ['.','_',':','-'].contains c

def validId (id : String) : Bool :=
  match id.toList with
  | [] => false
  | c :: rest => c.isAlphanum && rest.all idChar && decide (rest.length ≤ 127)

def idField (value : Json) (key : String) : Option String :=
  ((value.field? key).bind Json.str?).filter validId

mutual
/-- What is left of a budget after a value is copied. -/
def snapshot (depth budget : Nat) : Json → Except MuxCode Nat
  | .null | .bool _ | .num (.finite _) | .num .negativeZero => if 40 < depth ∨ budget = 0 then .error .bounds else .ok (budget - 1)
  | .num _ => if 40 < depth ∨ budget = 0 then .error .bounds else .error .protocol
  | .str s =>
    if 40 < depth ∨ budget = 0 ∨ budget - 1 < s.utf8ByteSize then .error .bounds else .ok (budget - 1 - s.utf8ByteSize)
  | .arr items => if 40 < depth ∨ budget = 0 then .error .bounds else snapshotItems depth (budget - 1) 0 items
  | .obj fields => if 40 < depth ∨ budget = 0 then .error .bounds else snapshotFields depth (budget - 1) fields

def snapshotItems (depth budget index : Nat) : List Json → Except MuxCode Nat
  | [] => .ok budget
  | item :: rest => do
    let left ← snapshot (depth + 1) (budget - (toString index).utf8ByteSize) item
    snapshotItems depth left (index + 1) rest

def snapshotFields (depth budget : Nat) : List (String × Json) → Except MuxCode Nat
  | [] => .ok budget
  | (key,value) :: rest => do
    let left ← snapshot (depth + 1) (budget - key.utf8ByteSize) value
    snapshotFields depth left rest
end

def record (value : Json) (limit : Nat) : Except MuxCode Json := do
  let _ ← snapshot 0 limit value
  match value with
  | .obj fields => .ok (.obj fields)
  | _ => .error .protocol

/-- The worker identifiers that a multiplexer takes. -/
structure Workers where
  ids : List String
  some_ : ids ≠ []
  atMost : ids.length ≤ 8
  valid : ∀ id ∈ ids, validId id = true
  distinct : ids.Nodup

def workersOf (ids : List String) : Option Workers :=
  if h : ids ≠ [] ∧ ids.length ≤ 8 ∧ (∀ id ∈ ids, validId id = true) ∧ ids.Nodup then
    some ⟨ids,h.1,h.2.1,h.2.2.1,h.2.2.2⟩
  else none

inductive Channel where
  | worker (id : String)
  | control
  deriving DecidableEq

def Workers.channels (w : Workers) : List Channel := w.ids.map .worker ++ [.control]

def poolClosed (envelope : Json) : Bool := (envelope.field? "kind").bind Json.str? = some "poolClosed"

/-- Whose frame an envelope holds, the frame, and the bytes it counts. -/
def route (js : Script Json) (workers : Workers) (raw : Json) : Except MuxCode (Channel × Json × Nat) := do
  let envelope ← record raw frameBytes
  let size := (js.stringify envelope).utf8ByteSize
  if poolClosed envelope then
    if frameBytes < size then .error .bounds else .ok (.control,envelope,size)
  else
    match idField envelope "workerId",envelope.field? "frame" with
    | some id,some inner =>
      if envelope.keys.length ≠ 2 ∨ id ∉ workers.ids then .error .protocol
      else do
        let frame ← record inner frameBytes
        if frameBytes < size then .error .bounds else .ok (.worker id,frame,size)
    | _,_ => .error .protocol

/-! What may be written. -/

def visualBytes : Nat := 8388608
def visualFrameBytes : Nat := 12582912
def inputBound : Nat := 24576
def base64Chars : Nat := 11184812

def exact (value : Json) (names : List String) : Bool :=
  decide (value.keys.length = names.length) && names.all fun k => (value.field? k).isSome

/-- The bytes of an image, where its base64 text is their own. -/
def imageBytes (decoded : String → Option Nat) (image : Json) : Option Nat := do
  let mime ← (image.field? "mimeType").bind Json.str?
  let text ← (image.field? "base64").bind Json.str?
  if exact image ["mimeType","base64"] && (mime = "image/png" || mime = "image/jpeg") && text ≠ "" &&
      decide (utf16Length text ≤ base64Chars) then do
    let bytes ← decoded text
    if bytes = 0 then none else some bytes
  else none

/-- All images together, none of them bad. -/
def imagesBytes (decoded : String → Option Nat) : List Json → Option Nat
  | [] => some 0
  | image :: rest => do some ((← imageBytes decoded image) + (← imagesBytes decoded rest))

def visualTurn (decoded : String → Option Nat) (envelope frame : Json) (images : Json) : Bool :=
  exact envelope ["workerId","frame"] && (idField envelope "workerId").isSome &&
  exact frame ["kind","purpose","requestRef","input","images"] &&
  decide ((frame.field? "purpose").bind Json.str? = some "conversation") && (idField frame "requestRef").isSome &&
  (((frame.field? "input").bind Json.str?).map fun text => Telegram.textValid text inputBound).getD false &&
  match images with
  | .arr items => decide (1 ≤ items.length ∧ items.length ≤ 2) &&
      ((imagesBytes decoded items).map fun n => decide (n ≤ visualBytes)).getD false
  | _ => false

/-- The larger limit is for turns with images, and for nothing that only looks like one. -/
def getStandingMultiplexVisualFrameLimit (decoded : String → Option Nat) (envelope frame : Json) : Option Nat :=
  match (frame.field? "kind").bind Json.str?,frame.field? "images" with
  | some "turn",some images => if visualTurn decoded envelope frame images then some visualFrameBytes else none
  | _,_ => some frameBytes

/-- What the host says of a turn. -/
inductive Bound where
  | unbound
  | bound (work : Json)
  | threw

def binding : Bound → Except MuxFault (Option Json)
  | .unbound => .ok none
  | .threw => .error .thrown
  | .bound work =>
    match record work frameBytes with
    | .error code => .error (.pool code)
    | .ok work =>
      if work.keys.length ≠ 3 ∨ ["taskRef","planRef","workRef"].any (fun k => (idField work k).isNone) then .error (.pool .input)
      else .ok (some work)

/-- The envelope of a frame, or why it is not sent. -/
def envelopeOf (js : Script Json) (decoded : String → Option Nat) (worker : String) (value : Json) (bound : Bound) :
    Except MuxFault Json :=
  match record value visualFrameBytes with
  | .error code => .error (.pool code)
  | .ok frame =>
    match binding (if (frame.field? "kind").bind Json.str? = some "turn" then bound else .unbound) with
    | .error fault => .error fault
    | .ok work =>
      let envelope := Json.obj ([("workerId",.str worker)] ++ (work.map fun w => ("work",w)).toList ++ [("frame",frame)])
      match getStandingMultiplexVisualFrameLimit decoded envelope frame with
      | none => .error (.wire (.error .frame))
      | some limit => if limit < (js.stringify envelope).utf8ByteSize then .error (.pool .bounds) else .ok envelope

end Neurobro.Epoch
